import Spycat.Core.DataBlock
import Spycat.Lib.Layout

/-! The user side of the page cache tracer: every entry of its map is sent as an event. -/

namespace Spycat.Cachestat

open Lib

/-- How many characters the name of a task has room for. -/
def taskCommLen : Nat := 16

/-- How many characters the name of a file has room for. -/
def cacheFileSize : Nat := 64

/-- What a process has read from a file and written to it. -/
structure CacheInfo where
  pid : UInt32
  cpu : UInt32
  comm : CharArray taskCommLen
  file : CharArray cacheFileSize
  readSize : UInt64
  writeSize : UInt64
  cnt : UInt64

/-- The bytes of an entry. -/
def CacheInfo.bytes (info : CacheInfo) : Bytes :=
  cStruct 8
    [.u32 info.pid, .u32 info.cpu, .chars info.comm, .chars info.file, .u64 info.readSize,
      .u64 info.writeSize, .u64 info.cnt]

/-- An entry where the session looks at it, with the memory behind it. -/
structure MapValue where
  info : CacheInfo
  behind : Bytes

namespace MapValue

/-- The string that starts at an offset, which ends at the first NUL wherever that is. -/
def stringAt (value : MapValue) (offset : Nat) : Bytes :=
  goString ((value.info.bytes ++ value.behind).drop offset)

/-- The name of the task, behind two numbers. -/
def comm (value : MapValue) : Bytes := value.stringAt 8

/-- The name of the file, behind that of the task. -/
def file (value : MapValue) : Bytes := value.stringAt 24

/-- The attributes that an entry is sent as. -/
def attributes (value : MapValue) : List KeyValue :=
  [.ofByteBuf "comm" value.comm,
    .ofByteBuf "file" value.file,
    .ofUint32 "pid" value.info.pid,
    .ofUint32 "cpu" value.info.cpu,
    .ofUint64 "cnt" value.info.cnt,
    .ofUint64 "read_size_m" value.info.readSize,
    .ofUint64 "write_size_m" value.info.writeSize]

/-- The event for an entry. -/
def event (value : MapValue) (now : UInt64) : SpyEvent :=
  (SpyEvent.bare Model.cacheStat now { name := "", event := Model.cacheStat }
    { pid := 0, tid := 0, comm := [] }).setUserAttributes value.attributes

end MapValue

/-- The entries of the map; absent where the lookup of a key that was listed fails. -/
def getCacheStatMapValues (batch : List MapValue) (listed : List (Option MapValue)) :
    Option (List MapValue) :=
  -- A batch call that fails or finds nothing gives way to the iterator.
  if batch.length > 0 then some batch else listed.mapM id

/-- Send an event for every entry, at a time of its own; absent where the map cannot be read. -/
def reset (batch : List MapValue) (listed : List (Option MapValue)) (now : MapValue → UInt64) :
    Option (List SpyEvent) :=
  (getCacheStatMapValues batch listed).map fun values =>
    values.map fun value => value.event (now value)

end Spycat.Cachestat
