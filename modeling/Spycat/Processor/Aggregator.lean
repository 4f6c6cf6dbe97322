import Spycat.Lib.Run
import Spycat.Processor.AggValues

/-! The aggregator: records by name and label key, dumped and cleared at every tick. -/

namespace Spycat

open Lib

/-- The entries of one record name. -/
structure ValueRecorder where
  name : String
  labelValues : Assoc LabelKeys DefaultValuesMap
  aggKindMap : KindMap

/-- The orders in which a dump visits its maps. -/
structure DumpOrder where
  recorders : RangeOrder String
  entries : String → RangeOrder LabelKeys
  metrics : String → LabelKeys → RangeOrder String

/-- One dumped record, and the entry it was made of. -/
structure Dumped where
  name : String
  key : LabelKeys
  entry : DefaultValuesMap
  block : DataBlock

namespace ValueRecorder

/-- A recorder without entries. -/
def new (name : String) (aggKindMap : KindMap) : ValueRecorder where
  name := name
  labelValues := ∅
  aggKindMap := aggKindMap

/-- Take a record's metrics into the entry of its key, which the first record makes. -/
def record (r : ValueRecorder) (key : LabelKeys) (metricValues : List Metric) (timestamp : UInt64) :
    Option ValueRecorder :=
  let aggValues := (r.labelValues.lookup key).getD (DefaultValuesMap.new metricValues r.aggKindMap)
  (aggValues.calculateAll metricValues timestamp).map fun aggValues =>
    { r with labelValues := r.labelValues.insert key aggValues }

/-- The record made of one entry; absent where the source panics. -/
def dumpEntry (r : ValueRecorder) (order : DumpOrder) (key : LabelKeys) (entry : DefaultValuesMap) :
    Option Dumped :=
  (entry.getAll (order.metrics r.name key)).map fun metrics =>
    { name := r.name
      key := key
      entry := entry
      block := newDataBlock r.name key.getLabels entry.timestamp metrics }

/-- The records made of all entries. -/
def dump (r : ValueRecorder) (order : DumpOrder) : Option (List Dumped) :=
  (r.labelValues.range (order.entries r.name)).mapM fun (entry : LabelKeys × DefaultValuesMap) =>
    r.dumpEntry order entry.1 entry.2

/-- The recorder without its entries. -/
def reset (r : ValueRecorder) : ValueRecorder := { r with labelValues := ∅ }

end ValueRecorder

/-- The recorders by record name, and the aggregations of each metric. -/
structure DefaultAggregator where
  aggregatorMap : Assoc String ValueRecorder
  kindMap : KindMap

namespace DefaultAggregator

/-- An aggregator without recorders. -/
def new (kindMap : KindMap) : DefaultAggregator where
  aggregatorMap := ∅
  kindMap := kindMap

/-- Take a record in, under the key that the selectors make of its labels. -/
def aggregate (d : DefaultAggregator) (data : DataBlock) (selectors : List LabelSelector) :
    Option DefaultAggregator :=
  let result := (d.aggregatorMap.lookup data.name).getD (ValueRecorder.new data.name d.kindMap)
  let key := getLabelKeys selectors data.labels
  (result.record key data.metrics data.timestamp).map fun result =>
    { d with aggregatorMap := d.aggregatorMap.insert data.name result }

/-- Report all entries and clear them. -/
def dump (d : DefaultAggregator) (order : DumpOrder) : Option (DefaultAggregator × List Dumped) :=
  let recorders := d.aggregatorMap.range order.recorders
  (recorders.mapM fun (entry : String × ValueRecorder) => entry.2.dump order).map fun dumped =>
    ({ d with aggregatorMap := d.aggregatorMap.mapValues ValueRecorder.reset }, dumped.flatten)

end DefaultAggregator

/-- What happens to an aggregator. -/
inductive AggAction where
  | aggregate (data : DataBlock) (selectors : List LabelSelector)
  | dump (order : DumpOrder)

/-- An aggregator, and everything it has dumped. -/
structure AggState where
  aggregator : DefaultAggregator
  dumped : List Dumped

/-- One call of the aggregator; absent where the source panics. -/
def AggState.step (s : AggState) : AggAction → Option AggState
  | .aggregate data selectors =>
    (s.aggregator.aggregate data selectors).map fun aggregator =>
      { s with aggregator := aggregator }
  | .dump order =>
    (s.aggregator.dump order).map fun (aggregator, dumped) =>
      { aggregator := aggregator, dumped := s.dumped ++ dumped }

end Spycat
