import Spycat.Ebpf.OffcpuSession

/-! The records of the off-CPU tracer are read back as they were written, byte for byte. -/

namespace Spycat.Offcpu

open Lib Reader

/-- A waker is read back from its bytes. -/
theorem readWaker_reads (waker : WakerT) : readWaker.Reads waker.bytes waker := by
  -- The fields are read in the order in which they stand.
  have fields := (reads_done WakerT.mk).next (reads_uint32 waker.pid)
    |>.next (reads_uint32 waker.tgid) |>.next (reads_uint32 waker.tPid)
    |>.next (reads_uint32 waker.pad) |>.next (reads_chars waker.tComm)
    |>.next (reads_int32 waker.userStackId) |>.next (reads_int32 waker.kernStackId)
    |>.next (reads_chars waker.comm) |>.next (reads_uint64 waker.oncpuNs)
    |>.next (reads_uint64 waker.offcpuNs) |>.next (reads_uint64 waker.onrqNs)
    |>.next (reads_uint32 waker.offcpuId) |>.next (reads_uint32 waker.oncpuId)
    |>.next (reads_uint64 waker.runDelayNs)
  apply fields.cStruct
  simp [Packed]
  decide

/-- A target is read back from its bytes. -/
theorem readTarget_reads (target : TargetT) : readTarget.Reads target.bytes target := by
  -- The fields are those of a waker under other names.
  have fields := (reads_done TargetT.mk).next (reads_uint32 target.pid)
    |>.next (reads_uint32 target.tgid) |>.next (reads_uint32 target.wPid)
    |>.next (reads_uint32 target.pad) |>.next (reads_chars target.wComm)
    |>.next (reads_int32 target.userStackId) |>.next (reads_int32 target.kernStackId)
    |>.next (reads_chars target.comm) |>.next (reads_uint64 target.oncpuNs)
    |>.next (reads_uint64 target.offcpuNs) |>.next (reads_uint64 target.onrqNs)
    |>.next (reads_uint32 target.offcpuId) |>.next (reads_uint32 target.oncpuId)
    |>.next (reads_uint64 target.runDelayNs)
  apply fields.cStruct
  simp [Packed]
  decide

/-- An event is read back from its bytes. -/
theorem readOffCpuEvent_reads (event : PerfEventT) :
    readOffCpuEvent.Reads event.bytes event := by
  -- The two records in front fill 96 bytes each.
  have fields := (reads_done PerfEventT.mk).next (reads_struct 8 (readWaker_reads event.waker))
    |>.next (reads_struct 8 (readTarget_reads event.target)) |>.next (reads_uint64 event.durMs)
    |>.next (reads_uint64 event.rqDurMs) |>.next (reads_uint64 event.tsNs)
    |>.next (reads_uint32 event.isSchedCacheDump) |>.next (reads_uint32 event.cpu)
  apply fields.cStruct
  simp [Packed, (readWaker_reads _).length, (readTarget_reads _).length]
  decide

/-- A record of a cache is read back from its bytes. -/
theorem readSchedRecord_reads (r : SchedRecord) : readSchedRecord.Reads r.bytes r := by
  -- The name is sixteen bytes long, so the time behind it is aligned.
  have fields := (reads_done SchedRecord.mk).next (reads_uint32 r.pid)
    |>.next (reads_uint32 r.prio) |>.next (reads_chars r.comm) |>.next (reads_uint64 r.ts)
  apply fields.cStruct
  simp [Packed]
  decide

/-- A cache is read back from its bytes. -/
theorem readSchedCached_reads (cache : SchedCached) :
    readSchedCached.Reads cache.bytes cache := by
  -- The records stand behind the other fields, each as wide as the next.
  have records := reads_array readSchedRecord_reads cache.records
  have fields := (reads_done SchedCached.mk).next (reads_uint32 cache.status)
    |>.next (reads_uint32 cache.cpu) |>.next (reads_uint32 cache.id)
    |>.next (reads_uint32 cache.pad) |>.next (reads_struct 8 records)
  apply fields.cStruct
  simp [Packed, records.length]
  decide

namespace OffcpuSession

/-- The records of a cache that events stand for. -/
def dumped : List (Fin schedCacheSize) :=
  (List.finRange schedCacheSize).filter fun i => i.val % schedCacheDumpStep = 0

/-- A cache that was copied is sent by every tenth of its records. -/
theorem schedCacheDump_eq {session : OffcpuSession} {cpu : UInt32} {cache : SchedCached}
    (copied : session.mapSchedCacheDump.lookup cpu = some cache) (now : UInt64) :
    session.schedCacheDump now cpu = dumped.map (schedCacheEvent now cpu cache) := by
  -- The copy is read back as it was written.
  have read := (readSchedCached_reads cache).run []
  rw [List.append_nil] at read
  simp only [schedCacheDump, copied, read, Option.getD_some, dumped]

/-- The event that is sent for a record, with the texts of the stacks that it names. -/
def ownEvent (session : OffcpuSession) (now : UInt64) (event : PerfEventT) : SpyEvent :=
  offcpuEvent now event
    (session.symSession.stackText event.waker.kernStackId event.waker.userStackId
      event.waker.tgid)
    (session.symSession.stackText event.target.kernStackId event.target.userStackId
      event.target.tgid)

/-- What is sent for an event: the cache of its CPU, if it says so, and the event itself. -/
theorem handleEvent_eq (session : OffcpuSession) (now : UInt64) (event : PerfEventT)
    (rest : List UInt8) :
    session.handleEvent now (event.bytes ++ rest) =
      some ((if event.isSchedCacheDump = 1 then session.schedCacheDump now event.cpu else []) ++
        [session.ownEvent now event]) := by
  -- The event is read back as it was written, and the stacks are always resolved.
  simp only [handleEvent, (readOffCpuEvent_reads event).run rest, Option.getD_some,
    StackSession.resolveStacks_eq, Option.bind_some, Option.map_some, ownEvent]

/-- What holds of the last event that is sent for a record holds of the record's own event. -/
theorem handleEvent_own {session : OffcpuSession} {now : UInt64} {event : PerfEventT}
    {rest : List UInt8} {holds : SpyEvent → Prop} :
    (∃ dumped own, session.handleEvent now (event.bytes ++ rest) = some (dumped ++ [own]) ∧
      holds own) ↔ holds (session.ownEvent now event) := by
  -- The copies of a cache come first, so the own event is the last one.
  rw [handleEvent_eq]
  constructor
  · rintro ⟨dumped, own, handled, right⟩
    have sent := Option.some.inj handled
    have same := List.append_inj_right' sent (by simp only [List.length_singleton])
    rw [List.singleton_inj] at same
    rwa [same]
  · exact fun right => ⟨_, _, rfl, right⟩

/-- A marked event whose cache was copied makes one event for every tenth record, and its own. -/
theorem handleEvent_length {session : OffcpuSession} {event : PerfEventT} {cache : SchedCached}
    (marked : event.isSchedCacheDump = 1)
    (copied : session.mapSchedCacheDump.lookup event.cpu = some cache) (now : UInt64) :
    (session.handleEvent now event.bytes).map List.length = some 53 := by
  -- Every tenth of 512 records makes 52 of them.
  have count : dumped.length = 52 := by decide +kernel
  have sent := session.handleEvent_eq now event []
  rw [List.append_nil, if_pos marked, schedCacheDump_eq copied] at sent
  simp [sent, count]

end OffcpuSession

end Spycat.Offcpu
