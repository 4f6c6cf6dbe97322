import Spycat.Detector.Labels

/-! The CPU detector: it turns events into records or into samples of a trie that is uploaded. -/

namespace Spycat

open Lib

/-- The name that tracers give to the class of the detector's events. -/
def detectorCpuType : String := "detector_cpu"

/-- The server that the configuration names unless told otherwise. -/
def defaultServer : String := "http://localhost:4040"

/-- What the detector uses of code outside the repository. -/
structure External where
  /-- A profile's name with a suffix, empty where the name does not parse. -/
  addSuffix : String → String → String
  /-- A kernel time stamp as text. -/
  bootTime : UInt64 → Bytes
  /-- The host of an address, absent where the address does not parse. -/
  parseHost : String → Option String

/-- A point in time, in nanoseconds after the zero time. -/
abbrev Time := Int

/-- A profile handed to the upstream. -/
structure UploadJob where
  name : String
  startTime : Time
  endTime : Time
  spyName : String
  sampleRate : UInt32
  trie : Trie

/-- The parameters of a remote upstream. -/
structure RemoteConfig where
  authToken : String
  upstreamThreads : Int64
  upstreamAddress : String
  upstreamRequestTimeout : Int

/-- A remote upstream, with the jobs that were handed to it, the first one first. -/
structure Remote where
  cfg : RemoteConfig
  handed : List UploadJob

/-- The state of a detector. -/
structure CpuDetector where
  previousTries : Assoc String (List (Option Trie))
  tries : Assoc String (List (Option Trie))
  upstream : Option Remote
  /-- Whether the goroutine that calls for uploads was started. -/
  uploading : Bool
  startTimeTruncated : Time
  uploadRate : Int
  sampleRate : UInt32
  server : String

/-- The fields of an on-CPU configuration that the detector reads. -/
structure ONCPU where
  server : String
  uploadThreads : Int64
  uploadTimeout : Int

/-- What `Init` can be given: an on-CPU configuration, or a value of any other type. -/
inductive InitConfig where
  | oncpu (conf : ONCPU)
  | other

/-- Why a remote upstream could not be made. -/
inductive RemoteError where
  | parse
  | cloudTokenRequired
  deriving DecidableEq, Repr

/-- The host suffix that asks for an authentication token. -/
def cloudHostnameSuffix : String := "pyroscope.cloud"

/-- Make a remote upstream, unless its address does not parse or asks for a token. -/
def Remote.new (env : External) (cfg : RemoteConfig) : Except RemoteError Remote :=
  match env.parseHost cfg.upstreamAddress with
  | none => .error .parse
  | some host =>
    if cfg.authToken = "" ∧ host.endsWith cloudHostnameSuffix then .error .cloudTokenRequired
    else .ok { cfg := cfg, handed := [] }

/-- What the on-CPU handler has gathered from the attributes it went through. -/
structure OncpuScan where
  count : UInt64
  stack : Bytes
  labels : AttributeMap
  sampleRate : UInt32

/-- Take one more attribute in; a later one under the same key replaces what was there. -/
def OncpuScan.attribute (scan : OncpuScan) (kv : KeyValue) : OncpuScan :=
  if kv.key = "count" then
    { scan with
      count := kv.getUintValue
      labels := scan.labels.addIntValue Model.count kv.getUintValue.toInt64 }
  else if kv.key = "stack" then
    { scan with
      stack := kv.value
      labels := scan.labels.addStringValue Model.stack kv.value }
  else if kv.key = "sampleRate" then { scan with sampleRate := kv.getUintValue.toUInt32 }
  else scan

/-- Go through all attributes of an event, starting from the sample rate known so far. -/
def oncpuScan (sampleRate : UInt32) (e : SpyEvent) : OncpuScan :=
  e.userAttributes.foldl OncpuScan.attribute
    { count := 0, stack := [], labels := ∅, sampleRate := sampleRate }

namespace CpuDetector

/-- Set up the tries of an application that has none yet. -/
def initializeTries (c : CpuDetector) (appName : String) : CpuDetector :=
  if (c.previousTries.lookup appName).isNone then
    { c with
      previousTries := c.previousTries.insert appName [none]
      tries := c.tries.insert appName [some Trie.new] }
  else c

/-- A new detector, with no server, no upstream, and one empty trie for on-CPU samples. -/
def new : CpuDetector :=
  { (initializeTries
      { previousTries := ∅
        tries := ∅
        upstream := none
        uploading := false
        startTimeTruncated := 0
        uploadRate := 0
        sampleRate := 0
        server := "" } Model.onCpu) with
    uploadRate := 10 * 10 ^ 9 }

/-- Take the server over, and start the uploader where the server is the default one. -/
def init (env : External) (c : CpuDetector) (cfg : InitConfig) :
    CpuDetector × Except RemoteError Unit :=
  match cfg with
  | .other => (c, .ok ())
  | .oncpu conf =>
    let c := { c with server := conf.server }
    if c.server ≠ defaultServer then (c, .ok ())
    else
      let rc : RemoteConfig :=
        { authToken := ""
          upstreamThreads := conf.uploadThreads
          upstreamAddress := conf.server
          upstreamRequestTimeout := conf.uploadTimeout }
      match Remote.new env rc with
      | .error err => (c, .error err)
      | .ok up => ({ c with upstream := some up, uploading := true }, .ok ())

/-- Put a stack sample into the trie of its application; absent where the source panics. -/
def insertStack (c : CpuDetector) (appName : String) (stack : Bytes) (v : UInt64) :
    Option CpuDetector :=
  if stack.length > 0 then
    let c := if (c.tries.lookup appName).isNone then c.initializeTries appName else c
    match c.tries.lookup appName with
    | some (some t :: rest) =>
      (t.insert stack v [true]).map fun t =>
        { c with tries := c.tries.insert appName (some t :: rest) }
    | _ => none
  else some c

/-- The labels of an off-CPU event. -/
def formatOffcpuLabels (env : External) (e : SpyEvent) : AttributeMap :=
  formatLabels
    [timeCase env.bootTime "t_start_time" Model.startTime,
      intCase "cpu" Model.cpu,
      intCase "prio" Model.prio,
      intCase "cache_id" Model.cacheId,
      timeCase env.bootTime "ts" Model.timeStamp,
      intCase "dur_ms" Model.durMs,
      intCase "rq_dur_ms" Model.runqDurMs,
      trimmedCase "w_comm" Model.waker,
      intCase "w_tid" Model.tidW,
      intCase "w_pid" Model.pidW,
      stringCase "w_stack" Model.stackW,
      trimmedCase "t_comm" Model.wakee,
      intCase "t_tid" Model.tidT,
      intCase "t_pid" Model.pidT,
      stringCase "t_stack" Model.stackT,
      thousandthCase "t_onrq_oncpu" Model.runqLatUsT,
      thousandthCase "t_offcpu_oncpu" Model.cpuOffUsT] e

/-- The labels of a futex event. -/
def formatFutexSnoopLabels (e : SpyEvent) : AttributeMap :=
  addTask (formatLabels
    [intCase "user_cnt" Model.userCnt,
      intCase "max_user_cnt" Model.maxUserCnt,
      intCase "lock_addr" Model.lockAddr,
      intCase "min_dur" Model.minDur,
      intCase "max_dur" Model.maxDur,
      intCase "delta_dur" Model.deltaDur,
      intCase "avg_dur" Model.avgDur,
      intCase "lock_cnt" Model.lockCnt,
      stringCase "stack" Model.stack] e) e.task

/-- The labels of a system call event. -/
def formatSyscallLabels (e : SpyEvent) : AttributeMap :=
  addTask (formatLabels
    [intCase "dur_us" Model.durUs,
      stringCase "syscall" Model.syscall,
      stringCase "stack" Model.stack] e) e.task

/-- A record with one metric read off an attribute. -/
def recordOf (name : String) (labels : AttributeMap) (metricName key : String) (e : SpyEvent) :
    DataBlock :=
  newDataBlock name labels e.timeStamp
    [newIntMetric metricName (e.getUintUserAttribute key).toInt64]

/-- The record of an off-CPU event. -/
def offcpuHandler (env : External) (e : SpyEvent) : DataBlock :=
  recordOf Model.offCpu (formatOffcpuLabels env e) Model.offCpuMetricName "dur_ms" e

/-- The record of a futex event. -/
def futexsnoopHandler (e : SpyEvent) : DataBlock :=
  recordOf Model.futexSnoop (formatFutexSnoopLabels e) Model.futexMaxUerCountName "max_user_cnt" e

/-- The record of a system call event. -/
def syscallHandler (e : SpyEvent) : DataBlock :=
  recordOf Model.syscall (formatSyscallLabels e) Model.syscallMetricName "dur_us" e

/-- Put an on-CPU event into the trie, or make a record of it under the default server. -/
def oncpuHandler (c : CpuDetector) (e : SpyEvent) : Option (CpuDetector × Option DataBlock) :=
  let scan := oncpuScan c.sampleRate e
  let c := { c with sampleRate := scan.sampleRate }
  if c.server ≠ defaultServer then
    (c.insertStack e.name scan.stack scan.count).map fun c => (c, none)
  else
    some (c, some (newDataBlock Model.onCpu (addTask scan.labels e.task) e.timeStamp
      [newIntMetric Model.onCpuMetricName scan.count.toInt64]))

/-- Process one event: the state it leaves, and the record that is handed to the consumers. -/
def processEvent (env : External) (c : CpuDetector) (e : SpyEvent) :
    Option (CpuDetector × Option DataBlock) :=
  if e.name = Model.offCpu then some (c, some (offcpuHandler env e))
  else if e.name = Model.onCpu then c.oncpuHandler e
  -- The handler for disabled interrupts makes no record.
  else if e.name = Model.irqOff then some (c, none)
  else if e.name = Model.futexSnoop then some (c, some (futexsnoopHandler e))
  else if e.name = Model.syscall then some (c, some (syscallHandler e))
  else some (c, none)

/-- Hand a trie over unless it is empty; absent without an upstream, where the source panics. -/
def uploadTrie (env : External) (endTime : Time) (c : CpuDetector) (t : Trie) :
    Option CpuDetector :=
  if !t.isEmpty then
    c.upstream.map fun up =>
      -- The job holds the trie itself, and no later sample goes into it.
      let job : UploadJob :=
        { name := env.addSuffix "aa" "cpu"
          startTime := endTime - c.uploadRate
          endTime := endTime
          spyName := "ebpfspy"
          sampleRate := c.sampleRate
          trie := t }
      { c with upstream := some { up with handed := up.handed ++ [job] } }
  else some c

/-- Hand over the tries of one application and put new ones in their places. -/
def uploadArray (env : External) (endTime : Time) :
    CpuDetector → List (Option Trie) → Option (CpuDetector × List (Option Trie))
  | c, [] => some (c, [])
  | c, none :: rest => (uploadArray env endTime c rest).map fun (c, rest) => (c, none :: rest)
  | c, some t :: rest =>
    (uploadTrie env endTime c t).bind fun c =>
      (uploadArray env endTime c rest).map fun (c, rest) => (c, some Trie.new :: rest)

/-- The tries of one application replaced after they were handed over. -/
def uploadApp (env : External) (endTime : Time) (c : CpuDetector) (name : String) :
    Option CpuDetector :=
  match c.tries.lookup name with
  | none => some c
  | some tarr =>
    (uploadArray env endTime c tarr).map fun (c, tarr) =>
      { c with tries := c.tries.insert name tarr }

/-- Hand over what was collected; the first tick only takes the time down. -/
def uploadTries (env : External) (order : RangeOrder String) (c : CpuDetector)
    (endTimeTruncated : Time) : Option CpuDetector :=
  let uploaded :=
    if c.startTimeTruncated ≠ 0 then
      (order.arrange c.tries.keys).foldlM (uploadApp env endTimeTruncated) c
    else some c
  uploaded.map fun c => { c with startTimeTruncated := endTimeTruncated }

/-- The events whose class the receiver sends to this detector. -/
def ownedEvents : List String :=
  [Model.offCpu, Model.irqOff, Model.onCpu, Model.futexSnoop, Model.syscall]

end CpuDetector

/-- What happens to a detector: an event to process, or a tick of the uploader. -/
inductive CpuAction where
  | event (e : SpyEvent)
  | tick (endTimeTruncated : Time) (order : RangeOrder String)

/-- One step of the detector. -/
def CpuDetector.step (env : External) (c : CpuDetector) : CpuAction → Option CpuDetector
  | .event e => (c.processEvent env e).map (·.1)
  | .tick endTimeTruncated order => c.uploadTries env order endTimeTruncated

end Spycat
