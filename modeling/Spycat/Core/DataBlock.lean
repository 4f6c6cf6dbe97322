import Spycat.Lib.Assoc
import Spycat.Core.SpyEvent

/-! The record that detectors hand on: labels, metrics, and the names both are filed under. -/

namespace Spycat

open Lib

namespace Model

/-! Event names. -/

def offCpu := "offcpu"
def irqOff := "irqoff"
def onCpu := "oncpu"
def futexSnoop := "futexsnoop"
def syscall := "syscall"
def cacheStat := "cachestat"

/-! Metric names. -/

def offCpuMetricName := "offcpu_dur_ms"
def futexMaxUerCountName := "max_futex_user_cnt"
def cacheStatMetricName := "cachestat_read_size"
def onCpuMetricName := "oncpu_hit_count"
def syscallMetricName := "syscall_dur_us"

/-! Label names. -/

def comm := "comm"
def pid := "pid"
def tid := "tid"
def startTime := "start_ts"
def timeStamp := "ts"
def tidW := "waker_tid"
def pidW := "waker_pid"
def waker := "waker"
def wakee := "wakee"
def cpu := "cpu"
def prio := "prio"
def cacheId := "cache_id"
def pidT := "wakee_pid"
def tidT := "wakee_tid"
def stackW := "waker_stack"
def cpuOffUsT := "wakee_offcpu_us"
def runqLatUsT := "wakee_runqlat_us"
def stackT := "wakee_stack"
def runqDurMs := "rq_dur_ms"
def userCnt := "user_cnt"
def maxUserCnt := "max_user_cnt"
def lockAddr := "lock_addr"
def minDur := "min_dur"
def maxDur := "max_dur"
def deltaDur := "delta_dur"
def avgDur := "avg_dur"
def lockCnt := "lock_cnt"
def stack := "stack"
def durMs := "dur_ms"
def durUs := "dur_us"
def readSizeM := "read_size_m"
def writeSizeM := "write_size_m"
def file := "file"
def count := "count"

end Model

/-- A label's value; a string is whatever bytes it was made from. -/
inductive AttributeValue where
  | string (value : Bytes)
  | int (value : Int64)
  | bool (value : Bool)
  deriving DecidableEq

/-- Labels by name. -/
abbrev AttributeMap := Assoc String AttributeValue

namespace AttributeMap

/-- Store a string under a name. -/
def addStringValue (labels : AttributeMap) (key : String) (value : Bytes) : AttributeMap :=
  labels.insert key (.string value)

/-- Store an integer under a name. -/
def addIntValue (labels : AttributeMap) (key : String) (value : Int64) : AttributeMap :=
  labels.insert key (.int value)

end AttributeMap

/-- Values counted by bucket. -/
structure Histogram where
  sum : Int64
  count : UInt64
  explicitBoundaries : List Int64
  bucketCounts : List UInt64
  deriving DecidableEq

/-- What a metric carries. -/
inductive MetricData where
  | int (value : Int64)
  | histogram (histogram : Histogram)
  | none
  deriving DecidableEq

/-- A named measurement. -/
structure Metric where
  name : String
  data : MetricData
  deriving DecidableEq

/-- A metric holding one integer. -/
def newIntMetric (name : String) (value : Int64) : Metric where
  name := name
  data := .int value

/-- A detector's or aggregator's record. -/
structure DataBlock where
  name : String
  metrics : List Metric
  labels : AttributeMap
  timestamp : UInt64

/-- A record with its metrics. -/
def newDataBlock (name : String) (labels : AttributeMap) (timestamp : UInt64)
    (values : List Metric) : DataBlock where
  name := name
  metrics := values
  labels := labels
  timestamp := timestamp

end Spycat
