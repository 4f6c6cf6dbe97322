import Spycat.Lib.Words
import Spycat.Processor.LabelKey

/-! The values one entry of the aggregator keeps for each of its metrics. -/

namespace Spycat

open Lib

/-- How the values of a metric are aggregated; every unknown kind keeps the last value. -/
inductive AggregatorKind where
  | sum
  | max
  | avg
  | last
  | count
  | histogram
  | other
  deriving DecidableEq, Repr

/-- One aggregation of a metric, and the name it is reported under. -/
structure KindConfig where
  outputName : String
  kind : AggregatorKind
  explicitBoundaries : List Int64
  deriving DecidableEq

/-- The aggregations of each metric. -/
abbrev KindMap := Assoc String (List KindConfig)

/-- A histogram that is kept up; it has one bucket for each boundary. -/
structure HistogramValue where
  sum : Int64
  count : UInt64
  explicitBoundaries : List Int64
  bucketCounts : List UInt64
  aligned : bucketCounts.length = explicitBoundaries.length

namespace HistogramValue

/-- Count a value in every bucket whose boundary it does not exceed. -/
def calculate (v : HistogramValue) (value : Int64) : HistogramValue :=
  { v with
    sum := v.sum + value
    count := v.count + 1
    bucketCounts :=
      List.zipWith (fun boundary count => if value ≤ boundary then count + 1 else count)
        v.explicitBoundaries v.bucketCounts
    aligned := by simp [v.aligned] }

/-- Add the leading buckets of another histogram onto the own ones. -/
def addBuckets (own incoming : List UInt64) : List UInt64 :=
  List.zipWith (· + ·) own incoming ++ own.drop incoming.length

/-- Adding fewer buckets than there are keeps their number. -/
theorem addBuckets_length {own incoming : List UInt64} (short : incoming.length ≤ own.length) :
    (addBuckets own incoming).length = own.length := by
  -- The sums and the buckets that are left make up all of them.
  simp only [addBuckets, List.length_append, List.length_zipWith, List.length_drop]
  omega

/--
Merge another histogram in; one with another number of boundaries is an error and changes nothing.

The result is absent where the source panics, for a bucket that the own histogram does not have.
-/
def merge (v : HistogramValue) (metric : Histogram) : Option HistogramValue :=
  if v.explicitBoundaries.length ≠ metric.explicitBoundaries.length then some v
  else if short : metric.bucketCounts.length ≤ v.bucketCounts.length then
    some { v with
      sum := v.sum + metric.sum
      count := v.count + metric.count
      bucketCounts := addBuckets v.bucketCounts metric.bucketCounts
      aligned := (addBuckets_length short).trans v.aligned }
  else none

/-- What a merge with a histogram over another number of boundaries is refused with. -/
def mergeFailed : String :=
  "merge histogram failed when aggregating,the incoming metric's explicitBoundaries is " ++
    "different from memory"

/-- Merge another histogram in, with the error that is returned if it is refused. -/
def tryMerge (v : HistogramValue) (metric : Histogram) : Option (HistogramValue × Option String) :=
  if v.explicitBoundaries.length ≠ metric.explicitBoundaries.length then some (v, some mergeFailed)
  else (v.merge metric).map fun merged => (merged, none)

/-- What is kept is the same whether the error is looked at or not. -/
theorem tryMerge_fst (v : HistogramValue) (metric : Histogram) :
    (v.tryMerge metric).map (·.1) = v.merge metric := by
  -- A refused histogram leaves what is kept in both.
  unfold tryMerge
  split
  · rename_i other
    rw [merge, if_pos other]
    rfl
  · simp [Function.comp_def]

/-- The histogram that is reported. -/
def snapshot (v : HistogramValue) : Histogram where
  sum := v.sum
  count := v.count
  explicitBoundaries := v.explicitBoundaries
  bucketCounts := v.bucketCounts

end HistogramValue

/-- What is kept for one aggregation of a metric. -/
inductive AggregatedValue where
  | max (value : Int64)
  | sum (value : Int64)
  | avg (value count : Int64)
  | last (value : Int64)
  | count (value : Int64)
  | histogram (value : HistogramValue)

namespace AggregatedValue

/-- What an aggregation starts with. -/
def new (cfg : KindConfig) : AggregatedValue :=
  match cfg.kind with
  | .sum => .sum 0
  | .max => .max 0
  | .avg => .avg 0 0
  | .last => .last 0
  | .count => .count 0
  | .histogram =>
    .histogram
      { sum := 0
        count := 0
        explicitBoundaries := cfg.explicitBoundaries
        bucketCounts := List.replicate cfg.explicitBoundaries.length 0
        aligned := by simp }
  | .other => .last 0

/-- Take one value in. -/
def calculate (v : AggregatedValue) (value : Int64) : AggregatedValue :=
  match v with
  | .max held => .max (if held < value then value else held)
  | .sum held => .sum (held + value)
  | .avg held number => .avg (held + value) (number + 1)
  | .last _ => .last value
  | .count held => .count (held + 1)
  | .histogram held => .histogram (held.calculate value)

/-- Merge a histogram in; absent where the source panics. -/
def merge (v : AggregatedValue) (metric : Histogram) : Option AggregatedValue :=
  match v with
  -- A maximum and a last value refuse histograms, and the error is dropped.
  | .max held => some (.max held)
  | .last held => some (.last held)
  | .sum held => some (.sum (held + metric.sum))
  | .avg held number => some (.avg (held + metric.sum) (number + metric.count.toInt64))
  | .count held => some (.count (held + metric.count.toInt64))
  | .histogram held => (held.merge metric).map .histogram

/-- What is reported; absent for an average over no values, where the source panics. -/
def get (v : AggregatedValue) : Option MetricData :=
  match v with
  | .max value | .sum value | .last value | .count value => some (.int value)
  | .avg value number => if number = 0 then none else some (.int (value / number))
  | .histogram value =>
    some (.histogram
      { sum := value.sum
        count := value.count
        explicitBoundaries := value.explicitBoundaries
        bucketCounts := value.bucketCounts })

/-- Take one metric in: an integer is calculated, a histogram merged, anything else ignored. -/
def take (v : AggregatedValue) (data : MetricData) : Option AggregatedValue :=
  match data with
  | .int value => some (v.calculate value)
  | .histogram metric => v.merge metric
  | .none => some v

end AggregatedValue

/-- The aggregations of one entry, each with the name it is reported under. -/
structure DefaultValuesMap where
  values : Assoc String (List (String × AggregatedValue))
  timestamp : UInt64

namespace DefaultValuesMap

/-- An entry for the metrics of one record, of which only configured ones are kept. -/
def new (metrics : List Metric) (kindMap : KindMap) : DefaultValuesMap where
  values := metrics.foldl (fun values metric =>
    match kindMap.lookup metric.name with
    | none => values
    | some kindSlice =>
      values.insert metric.name
        (kindSlice.map fun cfg => (cfg.outputName, AggregatedValue.new cfg))) ∅
  timestamp := 0

/-- Take a metric in; one that the entry has no aggregations for changes nothing. -/
def calculate (m : DefaultValuesMap) (metric : Metric) (timestamp : UInt64) :
    Option DefaultValuesMap :=
  match m.values.lookup metric.name with
  | none => some m
  | some vSlice =>
    (vSlice.mapM fun (v : String × AggregatedValue) =>
      (v.2.take metric.data).map fun value => (v.1, value)).map fun vSlice =>
      { values := m.values.insert metric.name vSlice, timestamp := timestamp }

/-- Take the metrics of a record in, one after the other. -/
def calculateAll (m : DefaultValuesMap) (metrics : List Metric) (timestamp : UInt64) :
    Option DefaultValuesMap :=
  metrics.foldlM (fun m metric => m.calculate metric timestamp) m

/-- What is reported for one metric. -/
def get (m : DefaultValuesMap) (name : String) : Option (List Metric) :=
  ((m.values.lookup name).getD []).mapM fun (v : String × AggregatedValue) =>
    v.2.get.map fun data => { name := v.1, data := data }

/-- What is reported for all metrics. -/
def getAll (m : DefaultValuesMap) (order : RangeOrder String) : Option (List Metric) :=
  ((order.arrange m.values.keys).mapM m.get).map List.flatten

end DefaultValuesMap

end Spycat
