import Spycat.Detector.Labels

/-! The memory detector, which turns cache statistics into records. -/

namespace Spycat.MemDetector

/-- The labels of a cache statistics event. -/
def formatCacheStat (e : SpyEvent) : AttributeMap :=
  formatLabels
    [intCase "read_size_m" Model.readSizeM,
      intCase "write_size_m" Model.writeSizeM,
      intCase "pid" Model.pid,
      intCase "cpu" Model.cpu,
      intCase "cnt" Model.count,
      stringCase "comm" Model.comm,
      stringCase "file" Model.file] e

/-- The record of a cache statistics event. -/
def cachestatHandler (e : SpyEvent) : DataBlock :=
  newDataBlock Model.cacheStat (formatCacheStat e) e.timeStamp
    [newIntMetric Model.cacheStatMetricName (e.getUintUserAttribute "write_size").toInt64]

/-- Process one event: the record that is handed to the consumers. -/
def processEvent (e : SpyEvent) : Option DataBlock :=
  -- Events of any other name make no record.
  if e.name = Model.cacheStat then some (cachestatHandler e) else none

/-- The events whose class the receiver sends to this detector. -/
def ownedEvents : List String := [Model.cacheStat]

end Spycat.MemDetector
