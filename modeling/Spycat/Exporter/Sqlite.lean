import Spycat.Processor.LabelKey

/-! The exporter into a local database: a row for each record, and a table for each kind of row. -/

namespace Spycat.Sqlite

/-- A row of the table of off-CPU events; the database fills in its number and its time. -/
structure OFFCPU where
  wakerPid : UInt32
  wakerTid : UInt32
  wakerComm : Bytes
  wakerStack : Bytes
  wakeePid : UInt32
  wakeeTid : UInt32
  wakeeComm : Bytes
  wakeeStack : Bytes
  wakeeOffCpuTs : Bytes
  durMs : UInt32
  runqDurMs : UInt32
  cpu : UInt32
  cacheId : UInt32
  prio : UInt32
  deriving DecidableEq

/-- A row of the table of on-CPU events. -/
structure ONCPU where
  comm : Bytes
  pid : UInt32
  tid : UInt32
  stack : Bytes
  count : UInt32
  deriving DecidableEq

/-- A row of the table of system calls. -/
structure SYSCALL where
  comm : Bytes
  pid : UInt32
  tid : UInt32
  stack : Bytes
  durUs : UInt32
  syscall : Bytes
  deriving DecidableEq

/-- A row of the table of futex events. -/
structure FUTEXSNOOP where
  comm : Bytes
  pid : UInt32
  tid : UInt32
  stack : Bytes
  userCnt : UInt32
  maxUserCnt : UInt32
  lockAddr : Int64
  minDurUs : UInt32
  maxDurUs : UInt32
  avgDurUs : UInt32
  deltaDurUs : UInt32
  lockCnt : UInt32
  deriving DecidableEq

/-- A row of the table of cache statistics. -/
structure CACHESTAT where
  comm : Bytes
  pid : UInt32
  cpu : UInt32
  readSizeM : UInt32
  writeSizeM : UInt32
  cnt : UInt32
  file : Bytes
  deriving DecidableEq

/-- A row of any of the tables. -/
inductive Item where
  | offcpu (row : OFFCPU)
  | oncpu (row : ONCPU)
  | syscall (row : SYSCALL)
  | futexsnoop (row : FUTEXSNOOP)
  | cachestat (row : CACHESTAT)
  deriving DecidableEq

namespace Item

/-- The table a row belongs to. -/
def tableName : Item → String
  | .offcpu _ => "OFFCPU"
  | .oncpu _ => "ONCPU"
  | .syscall _ => "SYSCALL"
  | .futexsnoop _ => "FUTEXSNOOP"
  | .cachestat _ => "CACHESTAT"

/-! Type assertions, which fail for rows of another type. -/

def asOFFCPU : Item → Option OFFCPU
  | .offcpu row => some row
  | _ => none

def asONCPU : Item → Option ONCPU
  | .oncpu row => some row
  | _ => none

def asSYSCALL : Item → Option SYSCALL
  | .syscall row => some row
  | _ => none

def asFUTEXSNOOP : Item → Option FUTEXSNOOP
  | .futexsnoop row => some row
  | _ => none

def asCACHESTAT : Item → Option CACHESTAT
  | .cachestat row => some row
  | _ => none

end Item

/-- The rows of a batch that name a table and have the type of its rows. -/
def gather {ρ : Type} (table : String) (assertion : Item → Option ρ) (batch : List Item) : List ρ :=
  -- The name is compared before the type is asserted.
  batch.filterMap fun val => if val.tableName = table then assertion val else none

/-- Rows handed to the database for one table, which stores them so many at a time. -/
structure CreateInBatches where
  table : String
  rows : List Item
  batchSize : Nat
  deriving DecidableEq

/-- How many rows the database stores at a time. -/
def batchCacheSize : Nat := 200

/-- Rows handed to the database for one table, unless there are none. -/
def create {ρ : Type} (table : String) (item : ρ → Item) (rows : List ρ) : List CreateInBatches :=
  if rows.length > 0 then
    [{ table := table, rows := rows.map item, batchSize := batchCacheSize }]
  else []

/-- What a batch hands to the database, table by table. -/
def flush (batch : List Item) : List CreateInBatches :=
  -- Each kind of row is gathered from the whole batch, so its order stays.
  let offcpus := gather "OFFCPU" Item.asOFFCPU batch
  let oncpus := gather "ONCPU" Item.asONCPU batch
  let syscalls := gather "SYSCALL" Item.asSYSCALL batch
  let cachestats := gather "CACHESTAT" Item.asCACHESTAT batch
  let futexsnoops := gather "FUTEXSNOOP" Item.asFUTEXSNOOP batch
  create "OFFCPU" .offcpu offcpus ++ create "ONCPU" .oncpu oncpus ++
    create "SYSCALL" .syscall syscalls ++ create "CACHESTAT" .cachestat cachestats ++
      create "FUTEXSNOOP" .futexsnoop futexsnoops

/-- An integer label cut to 32 bits. -/
def uintLabel (labels : AttributeMap) (key : String) : UInt32 :=
  -- A label that is missing counts as zero.
  (labels.getIntValue key).toUInt64.toUInt32

/-- The row of a record; a record of any other name has none. -/
def consume (data : DataBlock) : Option Item :=
  let labels := data.labels
  if data.name = Model.offCpu then
    -- The numbers of the wakee are read from the labels of the waker, as in the source.
    some (.offcpu
      { wakerPid := uintLabel labels Model.tidW
        wakerTid := uintLabel labels Model.pidW
        wakerComm := labels.getStringValue Model.waker
        wakerStack := labels.getStringValue Model.stackW
        wakeePid := uintLabel labels Model.pidW
        wakeeTid := uintLabel labels Model.tidW
        wakeeComm := labels.getStringValue Model.wakee
        wakeeStack := labels.getStringValue Model.stackT
        wakeeOffCpuTs := labels.getStringValue Model.startTime
        durMs := uintLabel labels Model.durMs
        runqDurMs := uintLabel labels Model.runqDurMs
        cacheId := uintLabel labels Model.cacheId
        prio := uintLabel labels Model.prio
        cpu := uintLabel labels Model.cpu })
  else if data.name = Model.onCpu then
    some (.oncpu
      { comm := labels.getStringValue Model.comm
        pid := uintLabel labels Model.pid
        tid := uintLabel labels Model.tid
        stack := labels.getStringValue Model.stack
        count := uintLabel labels Model.count })
  else if data.name = Model.syscall then
    some (.syscall
      { comm := labels.getStringValue Model.comm
        pid := uintLabel labels Model.pid
        tid := uintLabel labels Model.tid
        stack := labels.getStringValue Model.stack
        syscall := labels.getStringValue Model.syscall
        durUs := uintLabel labels Model.durUs })
  else if data.name = Model.futexSnoop then
    some (.futexsnoop
      { comm := labels.getStringValue Model.comm
        pid := uintLabel labels Model.pid
        tid := uintLabel labels Model.tid
        stack := labels.getStringValue Model.stack
        userCnt := uintLabel labels Model.userCnt
        maxUserCnt := uintLabel labels Model.maxUserCnt
        lockAddr := labels.getIntValue Model.lockAddr
        minDurUs := uintLabel labels Model.minDur
        maxDurUs := uintLabel labels Model.maxDur
        avgDurUs := uintLabel labels Model.avgDur
        deltaDurUs := uintLabel labels Model.deltaDur
        lockCnt := uintLabel labels Model.lockCnt })
  else if data.name = Model.cacheStat then
    some (.cachestat
      { comm := labels.getStringValue Model.comm
        pid := uintLabel labels Model.pid
        cpu := uintLabel labels Model.cpu
        readSizeM := uintLabel labels Model.readSizeM
        writeSizeM := uintLabel labels Model.writeSizeM
        -- The source sets all columns but this one.
        cnt := 0
        file := labels.getStringValue Model.file })
  else none

end Spycat.Sqlite
