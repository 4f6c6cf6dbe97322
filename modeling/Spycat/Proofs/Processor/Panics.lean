import Spycat.Proofs.Processor.Kinds

/-! Which calls make the aggregator panic: averages over nothing, and buckets that are not there. -/

namespace Spycat

open Lib

/-- How many values a metric adds to an average. -/
def MetricData.number : MetricData → Nat
  | .int _ => 1
  | .histogram metric => metric.count.toNat
  | .none => 0

/-- How many values the metrics of one name add to an average. -/
def numberOf (name : String) (metrics : List Metric) : Nat :=
  ((metrics.filter (·.name = name)).map fun metric => metric.data.number).sum

/-- How many values records add to the averages of a metric. -/
def numbersOf (name : String) (records : List DataBlock) : Nat :=
  (records.map fun data => numberOf name data.metrics).sum

namespace AggregatedValue

/-- The number that an average divides by. -/
def divisor : AggregatedValue → Option Int64
  | .avg _ number => some number
  | _ => none

/-- The boundaries of a histogram. -/
def boundaries : AggregatedValue → Option (List Int64)
  | .histogram held => some held.explicitBoundaries
  | _ => none

/-- What a value keeps of its configuration, and of how many values it was given. -/
structure Kept (cfg : KindConfig) (number : Nat) (v : AggregatedValue) : Prop where
  divides : v.divisor = if cfg.kind = .avg then some (Int64.ofNat number) else none
  bounds : v.boundaries = if cfg.kind = .histogram then some cfg.explicitBoundaries else none

/-- A fresh value was given nothing. -/
theorem kept_new (cfg : KindConfig) : Kept cfg 0 (AggregatedValue.new cfg) := by
  -- Only an average has a divisor, and only a histogram has boundaries.
  cases kind : cfg.kind <;> constructor <;> simp [AggregatedValue.new, kind, divisor, boundaries]

end AggregatedValue

/-- A histogram has no bucket that the ones with as many boundaries as it has do not have. -/
def KindConfig.Fits (cfg : KindConfig) (data : MetricData) : Prop :=
  cfg.kind = .histogram → ∀ metric, data = .histogram metric →
    cfg.explicitBoundaries.length = metric.explicitBoundaries.length →
      metric.bucketCounts.length ≤ metric.explicitBoundaries.length

namespace AggregatedValue

variable {cfg : KindConfig} {number : Nat} {v v' : AggregatedValue} {data : MetricData}

/-- Taking a metric in adds its number of values. -/
theorem Kept.take (kept : Kept cfg number v) (taken : v.take data = some v') :
    Kept cfg (number + data.number) v' := by
  obtain ⟨divides, bounds⟩ := kept
  -- An average adds the number to its divisor, and the boundaries of a histogram stay.
  have same : v'.divisor = v.divisor.map (· + Int64.ofNat data.number) ∧
      v'.boundaries = v.boundaries := by
    cases data with
    | int value =>
      obtain rfl : v.calculate value = v' := by simpa [AggregatedValue.take] using taken
      cases v <;> exact ⟨rfl, rfl⟩
    | none =>
      obtain rfl : v = v' := by simpa [AggregatedValue.take] using taken
      cases v <;> simp [divisor, MetricData.number]
    | histogram metric =>
      cases v with
      | histogram held =>
        obtain ⟨merged, went, rfl⟩ := Option.map_eq_some_iff.mp
          (show (held.merge metric).map AggregatedValue.histogram = some v' from taken)
        refine ⟨rfl, congrArg some ?_⟩
        unfold HistogramValue.merge at went
        split at went
        · rw [Option.some.inj went]
        · split at went
          · rw [← Option.some.inj went]
          · cases went
      | avg held number =>
        obtain rfl := Option.some.inj taken
        have count : metric.count.toInt64 = Int64.ofNat metric.count.toNat := by
          apply Int64.toBitVec_inj.mp
          simp
        simp [divisor, boundaries, MetricData.number, count]
      | _ =>
        obtain rfl := Option.some.inj taken
        exact ⟨rfl, rfl⟩
  constructor
  · rw [same.1, divides]
    split
    · rw [Option.map_some, Int64.ofNat_add]
    · rfl
  · rw [same.2, bounds]

/-- Merging fails for a histogram over as many boundaries that has more buckets than those. -/
theorem merge_goes (held : HistogramValue) (metric : Histogram) :
    (∃ merged, held.merge metric = some merged) ↔
      (held.explicitBoundaries.length = metric.explicitBoundaries.length →
        metric.bucketCounts.length ≤ metric.explicitBoundaries.length) := by
  -- The own histogram has one bucket for each of its boundaries.
  have aligned := held.aligned
  unfold HistogramValue.merge
  split
  · rename_i other
    simp [other]
  · rename_i same
    split
    · rename_i short
      simp only [Option.some.injEq, exists_eq', true_iff]
      omega
    · rename_i long
      simp only [reduceCtorEq, exists_false, false_iff]
      omega

/-- A metric is taken in exactly where its buckets fit. -/
theorem Kept.take_goes (kept : Kept cfg number v) :
    (∃ v', v.take data = some v') ↔ cfg.Fits data := by
  have bounds := kept.bounds
  cases data with
  | int value => simp [AggregatedValue.take, KindConfig.Fits]
  | none => simp [AggregatedValue.take, KindConfig.Fits]
  | histogram metric =>
    -- Only a histogram that a histogram is merged into can fail.
    by_cases kind : cfg.kind = .histogram
    · rw [if_pos kind] at bounds
      cases v with
      | histogram held =>
        have same : held.explicitBoundaries = cfg.explicitBoundaries := Option.some.inj bounds
        have merges := merge_goes held metric
        rw [same] at merges
        simpa [AggregatedValue.take, merge, KindConfig.Fits, kind] using merges
      | _ => cases bounds
    · rw [if_neg kind] at bounds
      cases v with
      | histogram held => cases bounds
      | _ => simp [AggregatedValue.take, merge, KindConfig.Fits, kind]

/-- A number is zero as a 64-bit integer when it is a multiple of 2^64. -/
theorem ofNat_eq_zero_iff (number : Nat) : Int64.ofNat number = 0 ↔ 2 ^ 64 ∣ number := by
  -- As bits a 64-bit integer is its number modulo 2^64.
  rw [← Int64.toBitVec_inj, Int64.toBitVec_ofNat', ← BitVec.toNat_inj, BitVec.toNat_ofNat,
    Nat.dvd_iff_mod_eq_zero]
  rfl

/-- A value is reported exactly where it is no average over zero values. -/
theorem Kept.get_goes (kept : Kept cfg number v) :
    (∃ data, v.get = some data) ↔ (cfg.kind = .avg → ¬ 2 ^ 64 ∣ number) := by
  -- Only an average divides, and it divides by the number of its values.
  have divides := kept.divides
  by_cases kind : cfg.kind = .avg
  · rw [if_pos kind] at divides
    cases v with
    | avg held divisor =>
      obtain rfl : divisor = Int64.ofNat number := Option.some.inj divides
      simp [get, kind, ofNat_eq_zero_iff]
    | _ => cases divides
  · rw [if_neg kind] at divides
    cases v with
    | avg held divisor => cases divides
    | _ => simp [get, kind]

end AggregatedValue

/-- The aggregations that the first record of an entry asks for under a name. -/
def asked (kindMap : KindMap) (first : List Metric) (name : String) : Option (List KindConfig) :=
  if first.any (·.name = name) then kindMap.lookup name else none

/-- The aggregations of an entry are the ones asked for, and were given a number of values. -/
def DefaultValuesMap.Keeps (kindMap : KindMap) (first : List Metric) (number : String → Nat)
    (m : DefaultValuesMap) : Prop :=
  ∀ name, Option.Rel (List.Forall₂ fun cfg (v : String × AggregatedValue) =>
    v.2.Kept cfg (number name)) (asked kindMap first name) (m.values.lookup name)

section Entry

variable {kindMap : KindMap} {first metrics : List Metric} {metric : Metric}
  {number : String → Nat} {m m' : DefaultValuesMap} {timestamp : UInt64}

/-- A new entry was given nothing. -/
theorem keeps_new (kindMap : KindMap) (first : List Metric) :
    (DefaultValuesMap.new first kindMap).Keeps kindMap first fun _ => 0 := by
  -- A new entry has fresh values for the metrics that are carried and configured.
  intro name
  unfold asked
  cases configured : kindMap.lookup name with
  | none =>
    rw [lookup_new_unconfigured configured, ite_self]
    exact .none
  | some kinds =>
    rw [lookup_new configured]
    split
    · refine .some (List.forall₂_map_right_iff.mpr (List.forall₂_same.mpr fun cfg _ => ?_))
      exact AggregatedValue.kept_new cfg
    · exact .none

/-- An entry has aggregations under a name exactly where they were asked for. -/
theorem DefaultValuesMap.Keeps.cases (keeps : m.Keeps kindMap first number) (name : String) :
    (asked kindMap first name = none ∧ m.values.lookup name = none) ∨
      ∃ kinds slice, asked kindMap first name = some kinds ∧ m.values.lookup name = some slice ∧
        List.Forall₂ (fun cfg (v : String × AggregatedValue) => v.2.Kept cfg (number name))
          kinds slice := by
  -- The relation between what is asked for and what is there has two cases.
  have kept := keeps name
  generalize asked kindMap first name = wanted at kept ⊢
  generalize m.values.lookup name = stored at kept ⊢
  cases kept with
  | some related => exact .inr ⟨_, _, rfl, rfl, related⟩
  | none => exact .inl ⟨rfl, rfl⟩

/-- Taking a metric in goes through exactly where it fits all aggregations under its name. -/
theorem DefaultValuesMap.Keeps.calculate_goes (keeps : m.Keeps kindMap first number)
    (timestamp : UInt64) :
    (∃ m', m.calculate metric timestamp = some m') ↔
      ∀ kinds, asked kindMap first metric.name = some kinds → ∀ cfg ∈ kinds,
        cfg.Fits metric.data := by
  -- A name that was not asked for takes everything in.
  rcases keeps.cases metric.name with ⟨nothing, absent⟩ | ⟨kinds, slice, wanted, stored, related⟩
  · simp [nothing, calculate_absent absent]
  · -- The metric goes into every aggregation under its name, and one failure fails them all.
    have fits := forall_mem_iff (fun cfg => cfg.Fits metric.data)
      (fun v : String × AggregatedValue =>
        ∃ v', (v.2.take metric.data).map (fun value => (v.1, value)) = some v')
      (fun cfg v kept => by simp [← kept.take_goes]) related
    simp only [calculate_present stored, wanted, Option.some.injEq, forall_eq', fits]
    rw [← mapM_goes_iff]
    simp

/-- Taking a metric in adds its number of values under its name. -/
theorem DefaultValuesMap.Keeps.calculate (keeps : m.Keeps kindMap first number)
    (calculated : m.calculate metric timestamp = some m') :
    m'.Keeps kindMap first fun name => number name + numberOf name [metric] := by
  -- Only the aggregations under the name of the metric are given anything.
  intro name
  show Option.Rel (List.Forall₂ fun cfg (v : String × AggregatedValue) =>
    v.2.Kept cfg (number name + numberOf name [metric])) _ _
  by_cases same : metric.name = name
  · subst same
    have added : numberOf metric.name [metric] = metric.data.number := by simp [numberOf]
    rw [added]
    rcases keeps.cases metric.name with ⟨nothing, absent⟩ | ⟨kinds, slice, wanted, stored, related⟩
    · rw [calculate_absent absent, Option.some.injEq] at calculated
      rw [nothing, ← calculated, absent]
      exact .none
    · rw [calculate_present stored] at calculated
      obtain ⟨after, mapped, rfl⟩ := Option.map_eq_some_iff.mp calculated
      rw [wanted, AList.lookup_insert]
      refine .some (mapM_related (fun cfg v v' kept taken => ?_) related mapped)
      obtain ⟨value, went, rfl⟩ := Option.map_eq_some_iff.mp taken
      exact kept.take went
  · have nothing : numberOf name [metric] = 0 := by simp [numberOf, same]
    rw [calculate_other same calculated, nothing]
    exact keeps name

/-- A record is taken in exactly where each of its metrics fits the aggregations under its name. -/
theorem DefaultValuesMap.Keeps.calculateAll_goes (keeps : m.Keeps kindMap first number) :
    (∃ m', m.calculateAll metrics timestamp = some m') ↔
      ∀ metric ∈ metrics, ∀ kinds, asked kindMap first metric.name = some kinds → ∀ cfg ∈ kinds,
        cfg.Fits metric.data := by
  -- The numbers change from metric to metric, and what fits does not depend on them.
  induction metrics generalizing m number with
  | nil => simp [DefaultValuesMap.calculateAll]
  | cons metric rest ih =>
    rw [List.forall_mem_cons, ← keeps.calculate_goes timestamp]
    simp only [DefaultValuesMap.calculateAll, List.foldlM_cons]
    constructor
    · intro goes
      obtain ⟨m', went⟩ := goes
      obtain ⟨next, taken, others⟩ := Option.bind_eq_some_iff.mp went
      exact ⟨⟨next, taken⟩, (ih (keeps.calculate taken)).mp ⟨m', others⟩⟩
    · intro both
      obtain ⟨⟨next, taken⟩, fits⟩ := both
      obtain ⟨m', others⟩ := (ih (keeps.calculate taken)).mpr fits
      exact ⟨m', Option.bind_eq_some_iff.mpr ⟨next, taken, others⟩⟩

/-- Taking a record in adds its numbers of values. -/
theorem DefaultValuesMap.Keeps.calculateAll (keeps : m.Keeps kindMap first number)
    (calculated : m.calculateAll metrics timestamp = some m') :
    m'.Keeps kindMap first fun name => number name + numberOf name metrics := by
  -- The induction follows the metrics of the record.
  induction metrics generalizing m number with
  | nil =>
    obtain rfl : m = m' := by simpa [DefaultValuesMap.calculateAll] using calculated
    exact keeps
  | cons metric rest ih =>
    simp only [DefaultValuesMap.calculateAll, List.foldlM_cons] at calculated
    obtain ⟨next, taken, others⟩ := Option.bind_eq_some_iff.mp calculated
    have kept := ih (keeps.calculate taken) others
    have sums : ∀ name, number name + numberOf name [metric] + numberOf name rest =
        number name + numberOf name (metric :: rest) := by
      intro name
      by_cases same : metric.name = name <;> simp [numberOf, same, Nat.add_assoc]
    simpa only [sums] using kept

/-- An entry is reported exactly where no average under any of its names is over zero values. -/
theorem DefaultValuesMap.Keeps.getAll_goes (keeps : m.Keeps kindMap first number)
    (order : RangeOrder String) :
    (∃ metrics, m.getAll order = some metrics) ↔
      ∀ name kinds, asked kindMap first name = some kinds → ∀ cfg ∈ kinds, cfg.kind = .avg →
        ¬ 2 ^ 64 ∣ number name := by
  -- Each name is reported by its own aggregations.
  have each : ∀ name, (∃ list, m.get name = some list) ↔
      ∀ kinds, asked kindMap first name = some kinds → ∀ cfg ∈ kinds, cfg.kind = .avg →
        ¬ 2 ^ 64 ∣ number name := by
    intro name
    unfold DefaultValuesMap.get
    rcases keeps.cases name with ⟨nothing, absent⟩ | ⟨kinds, slice, wanted, stored, related⟩
    · simp [nothing, absent]
    · have reported := forall_mem_iff (fun cfg => cfg.kind = .avg → ¬ 2 ^ 64 ∣ number name)
        (fun v : String × AggregatedValue => ∃ metric,
          (v.2.get.map fun data => ({ name := v.1, data := data } : Metric)) = some metric)
        (fun cfg v kept => by rw [← kept.get_goes]; simp) related
      simp only [stored, wanted, Option.some.injEq, forall_eq', reported, Option.getD_some]
      exact mapM_goes_iff
  have visits : (∃ metrics, m.getAll order = some metrics) ↔
      ∀ name ∈ order.arrange m.values.keys, ∃ list, m.get name = some list := by
    rw [← mapM_goes_iff]
    simp [DefaultValuesMap.getAll]
  rw [visits]
  constructor
  · intro goes name kinds wanted
    have listed : name ∈ order.arrange m.values.keys := by
      rcases keeps.cases name with ⟨nothing, -⟩ | ⟨_, slice, -, stored, -⟩
      · simp [nothing] at wanted
      · rw [(order.perm _).mem_iff, ← AList.mem_keys, ← AList.lookup_isSome, stored]
        rfl
    exact (each name).mp (goes name listed) kinds wanted
  · exact fun sound name _ => (each name).mpr (sound name)

end Entry

/-- The records of an entry leave it with the aggregations that the first of them asks for. -/
theorem EntryOf.keeps {kindMap : KindMap} {first : DataBlock} {rest : List DataBlock}
    {entry : DefaultValuesMap} (entryOf : EntryOf kindMap (first :: rest) (some entry)) :
    entry.Keeps kindMap first.metrics fun name => numbersOf name (first :: rest) := by
  -- The records are taken in one after the other, whatever was given before.
  cases entryOf with
  | gathered made =>
    have general : ∀ (records : List DataBlock) (m : DefaultValuesMap) (number : String → Nat),
        m.Keeps kindMap first.metrics number →
        records.foldlM (fun (m : DefaultValuesMap) (data : DataBlock) =>
          m.calculateAll data.metrics data.timestamp) m = some entry →
        entry.Keeps kindMap first.metrics fun name => number name + numbersOf name records := by
      intro records
      induction records with
      | nil =>
        intro m number keeps done
        obtain rfl : m = entry := by simpa using done
        exact keeps
      | cons data records ih =>
        intro m number keeps done
        rw [List.foldlM_cons] at done
        obtain ⟨next, taken, done⟩ := Option.bind_eq_some_iff.mp done
        have kept := ih next _ (keeps.calculateAll taken) done
        simpa only [numbersOf, List.map_cons, List.sum_cons, Nat.add_assoc] using kept
    simpa using general _ _ _ (keeps_new kindMap first.metrics) made

/-- A record's metrics fit the aggregations that the first record of its entry asks for. -/
def Fitting (kindMap : KindMap) (records : List DataBlock) (data : DataBlock) : Prop :=
  ∀ metric ∈ data.metrics, ∀ kinds,
    asked kindMap (records.headD data).metrics metric.name = some kinds → ∀ cfg ∈ kinds,
      cfg.Fits metric.data

/-- Every average that the first record of an entry asks for is over some values, modulo 2^64. -/
def Averaging (kindMap : KindMap) (records : List DataBlock) : Prop :=
  ∀ first, records.head? = some first → ∀ name kinds,
    asked kindMap first.metrics name = some kinds → ∀ cfg ∈ kinds, cfg.kind = .avg →
      ¬ 2 ^ 64 ∣ numbersOf name records

/-- After the calls before it a call fits the records since the last dump, or can report them. -/
def Harmless (kindMap : KindMap) (past : List AggAction) : AggAction → Prop
  | .aggregate data selectors =>
    Fitting kindMap (recordsSince data.name (getLabelKeys selectors data.labels) past) data
  | .dump _ => ∀ block key, Averaging kindMap (recordsSince block key past)

section Calls

variable {kindMap : KindMap} {past : List AggAction} {s : AggState}

/-- A call goes through exactly where the entry it is for takes the record in. -/
theorem Gathered.aggregate_taken (gathered : Gathered kindMap past s) (data : DataBlock)
    (selectors : List LabelSelector) :
    (∃ next, s.step (.aggregate data selectors) = some next) ↔
      ∃ after, ((s.aggregator.entry data.name (getLabelKeys selectors data.labels)).getD
        (DefaultValuesMap.new data.metrics kindMap)).calculateAll data.metrics data.timestamp =
          some after := by
  simp only [AggState.step, DefaultAggregator.aggregate, ValueRecorder.record,
    DefaultAggregator.entry]
  -- The recorder is there with the configured aggregations, or is made with them.
  cases stored : s.aggregator.aggregatorMap.lookup data.name with
  | none => simp [ValueRecorder.new, gathered.kinds]
  | some r => simp [(gathered.recorders data.name r stored).2]

/-- Aggregating a record goes through exactly where it fits. -/
theorem Gathered.aggregate_goes (gathered : Gathered kindMap past s) (data : DataBlock)
    (selectors : List LabelSelector) :
    (∃ next, s.step (.aggregate data selectors) = some next) ↔
      Fitting kindMap (recordsSince data.name (getLabelKeys selectors data.labels) past) data := by
  rw [gathered.aggregate_taken]
  have entryOf := gathered.entries data.name (getLabelKeys selectors data.labels)
  generalize recordsSince data.name (getLabelKeys selectors data.labels) past = records at entryOf ⊢
  generalize s.aggregator.entry data.name (getLabelKeys selectors data.labels) = entry at entryOf ⊢
  -- The first record of the entry is the one that made it, or this one.
  cases entryOf with
  | nothing => exact (keeps_new kindMap data.metrics).calculateAll_goes
  | gathered made => exact (EntryOf.gathered made).keeps.calculateAll_goes

/-- The entry of a key can be reported exactly where its averages are over some values. -/
theorem Gathered.entry_reported (gathered : Gathered kindMap past s) (block : String)
    (key : LabelKeys) (visits : RangeOrder String) :
    (∀ entry, s.aggregator.entry block key = some entry →
        ∃ metrics, entry.getAll visits = some metrics) ↔
      Averaging kindMap (recordsSince block key past) := by
  have entryOf := gathered.entries block key
  generalize recordsSince block key past = records at entryOf ⊢
  generalize s.aggregator.entry block key = held at entryOf ⊢
  -- No records make no entry, and nothing to average.
  cases entryOf with
  | nothing => simp [Averaging]
  | gathered made =>
    have goes := (EntryOf.gathered made).keeps.getAll_goes visits
    simpa [Averaging] using goes

/-- A recorder is dumped exactly where each of its entries can be reported. -/
theorem dump_recorder_goes (order : DumpOrder) (r : ValueRecorder) :
    (∃ dumped, r.dump order = some dumped) ↔
      ∀ key entry, r.labelValues.lookup key = some entry →
        ∃ metrics, entry.getAll (order.metrics r.name key) = some metrics := by
  -- The dump goes through all entries, in whatever order.
  unfold ValueRecorder.dump
  rw [mapM_goes_iff]
  simp [Assoc.mem_range, ValueRecorder.dumpEntry]

/-- A dump goes through exactly where each recorder is dumped. -/
theorem dump_goes_recorders (s : AggState) (order : DumpOrder) :
    (∃ next, s.step (.dump order) = some next) ↔
      ∀ block r, s.aggregator.aggregatorMap.lookup block = some r →
        ∃ dumped, r.dump order = some dumped := by
  -- The loop goes over all recorders, in whatever order.
  have each : (∃ lists, ((s.aggregator.aggregatorMap.range order.recorders).mapM
      fun entry : String × ValueRecorder => entry.2.dump order) = some lists) ↔ _ :=
    mapM_goes_iff
  simp only [Prod.forall, Assoc.mem_range] at each
  rw [← each]
  simp [AggState.step, DefaultAggregator.dump]

/-- A dump goes through exactly where all entries can be reported. -/
theorem Gathered.dump_goes_iff (gathered : Gathered kindMap past s) (order : DumpOrder) :
    (∃ next, s.step (.dump order) = some next) ↔
      ∀ block key, Averaging kindMap (recordsSince block key past) := by
  simp only [dump_goes_recorders, dump_recorder_goes]
  -- The entries of all recorders are the entries of the aggregator.
  constructor
  · intro goes block key
    cases stored : s.aggregator.aggregatorMap.lookup block with
    | none =>
      refine (gathered.entry_reported block key .listed).mp fun entry found => ?_
      simp [DefaultAggregator.entry, stored] at found
    | some r =>
      refine (gathered.entry_reported block key (order.metrics r.name key)).mp
        fun entry found => ?_
      refine goes block r stored key entry ?_
      simpa [DefaultAggregator.entry, stored] using found
  · intro sound block r stored key entry held
    refine (gathered.entry_reported block key _).mpr (sound block key) entry ?_
    simp [DefaultAggregator.entry, stored, held]

end Calls

/-- A sequence of calls gets through without a panic exactly where all of them are harmless. -/
theorem AggState.run_goes_iff_harmless (kindMap : KindMap) (actions : List AggAction) :
    (∃ s, run AggState.step (AggState.start kindMap) actions = some s) ↔
      ∀ past action, past ++ [action] <+: actions → Harmless kindMap past action := by
  -- Every call is decided by the records that the calls before it left.
  refine run_goes_iff (Gathered kindMap) gathered_start
    (fun _ _ _ _ gathered stepped => gathered.step stepped) ?_ actions
  intro past s action gathered
  cases action with
  | aggregate data selectors => exact gathered.aggregate_goes data selectors
  | dump order => exact gathered.dump_goes_iff order

/-- One metric that is averaged, and counted by buckets with one boundary. -/
def averagedAndBucketed : KindMap :=
  (∅ : KindMap).insert "a" [⟨"a_avg", .avg, []⟩, ⟨"a_histogram", .histogram, [10]⟩]

/-- A histogram over one boundary. -/
def overTen (count : UInt64) (bucketCounts : List UInt64) : MetricData :=
  .histogram { sum := 0, count := count, explicitBoundaries := [10], bucketCounts := bucketCounts }

/--
A dump panics after a metric without data, and after a histogram over no values; aggregating panics
for a histogram with a second bucket behind its one boundary.
-/
theorem AggState.run_panics :
    (run AggState.step (AggState.start averagedAndBucketed)
        [carrying [⟨"a", .none⟩], .dump listedDump]).isNone ∧
      (run AggState.step (AggState.start averagedAndBucketed)
        [carrying [⟨"a", overTen 0 [0]⟩], .dump listedDump]).isNone ∧
      (run AggState.step (AggState.start averagedAndBucketed)
        [carrying [⟨"a", overTen 2 [1, 1]⟩]]).isNone := by
  -- The three runs are evaluated.
  decide +kernel

end Spycat
