import Spycat.Proofs.Ebpf.OffcpuCaches

/-! What becomes of a copied scheduler cache in user space: its events, and their rows. -/

namespace Spycat.Offcpu

open Lib Bpf

/-- A slot holds the last task of a history whose number falls into it, or nothing yet. -/
structure SlotHolds (history : List SchedRecord) (slot : Nat) (r : SchedRecord) : Prop where
  written : ∀ number, number % schedCacheSize = slot → number < history.length →
    history.length ≤ number + schedCacheSize → history[number]? = some r
  blank : history.length ≤ slot → r = .zero

/-- The slots of a cache hold the tasks of its history. -/
theorem after_slot (cpu : UInt32) (history : List SchedRecord) (slot : Fin schedCacheSize) :
    SlotHolds history slot ((SchedCached.after cpu history).records.get slot) := by
  constructor
  · intro number right before recent
    -- The number is the last one of its slot.
    have inside : number % schedCacheSize < schedCacheSize := Nat.mod_lt _ schedCacheSize_pos
    have found : history[number]? = some history[number] := List.getElem?_eq_getElem before
    have held := @ringOf_recent _ _ SchedRecord.zero _ _ _ found recent inside
    simp only [right] at held
    rw [found]
    exact congrArg some held.symm
  · exact fun unwritten => ringOf_blank unwritten slot.isLt

/-- The slots that events stand for are every tenth one. -/
theorem dumped_eq : OffcpuSession.dumped = List.ofFn fun j : Fin 52 =>
    (⟨schedCacheDumpStep * j.val, by
      have last := j.isLt
      simp only [schedCacheDumpStep, schedCacheSize]
      omega⟩ : Fin schedCacheSize) := by
  -- The slots are counted out.
  decide +kernel

/-- The labels of a record of a cache, in the order of its attributes. -/
def copyLabels (env : External) (cpu : UInt32) (slot : Nat) (r : SchedRecord) :
    List (String × AttributeValue) :=
  [(Model.cpu, .int cpu.toUInt64.toInt64),
    (Model.cacheId, .int (UInt32.ofNat slot).toUInt64.toInt64),
    (Model.timeStamp, .string (env.bootTime r.ts)),
    (Model.prio, .int r.prio.toUInt64.toInt64)]

/-- The labels of a record are those; what names its task is not among them. -/
theorem formatOffcpuLabels_copy (env : External) (now : UInt64) (cpu : UInt32)
    (cache : SchedCached) (slot : Fin schedCacheSize) :
    CpuDetector.formatOffcpuLabels env (OffcpuSession.schedCacheEvent now cpu cache slot) =
      storedLabels (copyLabels env cpu slot (cache.records.get slot)) := by
  -- Each attribute is looked up among the cases, and read back as it was set.
  unfold CpuDetector.formatOffcpuLabels OffcpuSession.schedCacheEvent
  rw [formatLabels_eq, SpyEvent.userAttributes_bare (by simp [spyEventFieldMax])]
  simp only [List.foldl_cons, List.foldl_nil, applyCase_nil, applyCase_int, applyCase_thousandth,
    applyCase_string, applyCase_trimmed, applyCase_time, KeyValue.key_ofUint32,
    KeyValue.key_ofUint64, KeyValue.getUintValue_ofUint32,
    KeyValue.getUintValue_ofUint64, String.reduceEq, if_true, if_false]
  rfl

/-- A row that says of a task which slot of a CPU's cache it was in, and its priority. -/
def copyRow (cpu : UInt32) (slot : Nat) (prio : UInt32) : Sqlite.OFFCPU where
  wakerPid := 0
  wakerTid := 0
  wakerComm := []
  wakerStack := []
  wakeePid := 0
  wakeeTid := 0
  wakeeComm := []
  wakeeStack := []
  wakeeOffCpuTs := []
  durMs := 0
  runqDurMs := 0
  cpu := cpu
  cacheId := UInt32.ofNat slot
  prio := prio

/-- No other label is stored for a record. -/
theorem copyLabels_missing {env : External} {cpu : UInt32} {slot : Nat} {r : SchedRecord}
    {label : String}
    (other : label ∉ [Model.cpu, Model.cacheId, Model.timeStamp, Model.prio]) :
    Assoc.lastValue label (copyLabels env cpu slot r) = none := by
  -- There are four labels, and this is none of them.
  simp only [List.mem_cons, List.not_mem_nil, or_false, not_or] at other
  obtain ⟨ownCpu, ownSlot, ownTime, ownPrio⟩ := other
  simp [copyLabels, Assoc.lastValue, Ne.symm ownCpu, Ne.symm ownSlot, Ne.symm ownTime,
    Ne.symm ownPrio]

/-- The row of a record of a cache has none of the columns that name a task. -/
theorem consume_copy (env : External) (now : UInt64) (cpu : UInt32) (cache : SchedCached)
    (slot : Fin schedCacheSize) :
    Sqlite.consume
        (CpuDetector.offcpuHandler env (OffcpuSession.schedCacheEvent now cpu cache slot)) =
      some (.offcpu (copyRow cpu slot (cache.records.get slot).prio)) := by
  -- The three labels that there are columns for are read, and all others are missing.
  have ownCpu : Sqlite.uintLabel (storedLabels (copyLabels env cpu slot (cache.records.get slot)))
      Model.cpu = cpu := (Sqlite.uintLabel_stored rfl).trans (UInt32.toUInt32_toUInt64 _)
  have ownSlot : Sqlite.uintLabel (storedLabels (copyLabels env cpu slot (cache.records.get slot)))
      Model.cacheId = UInt32.ofNat slot :=
    (Sqlite.uintLabel_stored rfl).trans (UInt32.toUInt32_toUInt64 _)
  have ownPrio : Sqlite.uintLabel (storedLabels (copyLabels env cpu slot (cache.records.get slot)))
      Model.prio = (cache.records.get slot).prio :=
    (Sqlite.uintLabel_stored rfl).trans (UInt32.toUInt32_toUInt64 _)
  have number : ∀ label, label ∉ [Model.cpu, Model.cacheId, Model.timeStamp, Model.prio] →
      Sqlite.uintLabel (storedLabels (copyLabels env cpu slot (cache.records.get slot)))
        label = 0 :=
    fun label other => Sqlite.uintLabel_missing (copyLabels_missing other)
  have text : ∀ label, label ∉ [Model.cpu, Model.cacheId, Model.timeStamp, Model.prio] →
      (storedLabels (copyLabels env cpu slot (cache.records.get slot))).getStringValue
        label = [] :=
    fun label other => getStringValue_missing (copyLabels_missing other)
  simp only [Sqlite.consume, CpuDetector.offcpuHandler, CpuDetector.recordOf, newDataBlock,
    if_true, formatOffcpuLabels_copy, ownCpu, ownSlot, ownPrio, copyRow,
    number Model.tidW (by decide), number Model.pidW (by decide), number Model.durMs (by decide),
    number Model.runqDurMs (by decide), text Model.waker (by decide),
    text Model.stackW (by decide), text Model.wakee (by decide), text Model.stackT (by decide),
    text Model.startTime (by decide)]

/-- The event for a record of a cache has the record's task. -/
theorem schedCacheEvent_task (now : UInt64) (cpu : UInt32) (cache : SchedCached)
    (slot : Fin schedCacheSize) :
    (OffcpuSession.schedCacheEvent now cpu cache slot).task =
      { pid := 0
        tid := (cache.records.get slot).pid
        comm := (cache.records.get slot).comm.toList } := by
  -- Setting attributes leaves the task alone.
  rw [OffcpuSession.schedCacheEvent, SpyEvent.setUserAttributes_eq (by
    simp [SpyEvent.bare, spyEventFieldMax])]
  rfl

/-- The event, the labels and the row of a slot say what its record says. -/
structure Describes (env : External) (e : SpyEvent) (cpu : UInt32) (slot : Nat) (r : SchedRecord) :
    Prop where
  tid : e.task.tid = r.pid
  comm : e.task.comm = r.comm.toList
  labels : CpuDetector.formatOffcpuLabels env e = storedLabels (copyLabels env cpu slot r)
  row : Sqlite.consume (CpuDetector.offcpuHandler env e) = some (.offcpu (copyRow cpu slot r.prio))

/-- The event for a slot of a cache says what its record says. -/
theorem describes_copy (env : External) (now : UInt64) (cpu : UInt32) (cache : SchedCached)
    (slot : Fin schedCacheSize) :
    Describes env (OffcpuSession.schedCacheEvent now cpu cache slot) cpu slot
      (cache.records.get slot) := by
  -- The event is made of the record, and labels and row of the event.
  have task := schedCacheEvent_task now cpu cache slot
  exact ⟨congrArg TaskInfo.tid task, congrArg TaskInfo.comm task, formatOffcpuLabels_copy ..,
    consume_copy ..⟩

namespace OffcpuTracer

variable {s : OffcpuTracer} {args : UserArgs}

/-- The marks of a run name CPUs whose caches were copied. -/
theorem marksCopied_run {actions : List OffcpuAction}
    (ran : run step (new args) actions = some s) : s.MarksCopied := by
  -- No scratch record is marked at first.
  have fresh : (new args).MarksCopied := by
    refine ⟨fun cpu marked => ?_, nofun⟩
    exact absurd (show (0 : UInt32) = 1 from marked) (by decide)
  exact run_invariant MarksCopied fresh
    (fun state action next marks stepped => marks.step (step_moves stepped)) ran

/--
A marked event makes 52 more events, for every tenth slot of the last copy of its CPU's cache; each
has the task that the slot held then, and its labels and its row have the slot and the priority but
not the task. Fewer CPUs have copies than the map of copies holds.
-/
theorem copies_reported (args : UserArgs) (actions : List OffcpuAction) (s : OffcpuTracer)
    (ran : run step (new args) actions = some s) (x : Emitted) (member : x ∈ s.emitted)
    (marked : x.event.isSchedCacheDump = 1) (room : s.maps.schedCacheBackup.size < maxBackups)
    (env : External) (symSession : StackSession) (now : UInt64) (rest : List UInt8) :
    let session : OffcpuSession :=
      { symSession := symSession, mapSchedCacheDump := s.maps.schedCacheBackup }
    ∃ past ctx copies, LastCopy args x.ctx.cpu actions past ctx ∧
      session.handleEvent now (x.event.bytes ++ rest) =
        some (copies ++ [session.ownEvent now x.event]) ∧
      copies.length = 52 ∧
      ∀ j e, copies[j]? = some e →
        ∃ r, SlotHolds (recorded args x.ctx.cpu (past ++ [.switch ctx]))
            (schedCacheDumpStep * j) r ∧
          Describes env e x.ctx.cpu (schedCacheDumpStep * j) r := by
  -- The mark says that there is a copy, and the copy is the last one that was made.
  intro session
  obtain ⟨named, copied⟩ := (marksCopied_run ran).emitted x member marked
  have present : (s.maps.schedCacheBackup.lookup x.ctx.cpu).isSome :=
    copied.resolve_right (Nat.not_le.mpr room)
  obtain ⟨cache, found⟩ := Option.isSome_iff_exists.mp present
  obtain ⟨past, ctx, copy, held⟩ := ((cachesKept_run ran).2.copies x.ctx.cpu).copied cache found
  have sent := @OffcpuSession.schedCacheDump_eq session _ _ found now
  refine ⟨past, ctx, session.schedCacheDump now x.ctx.cpu, copy, ?_, ?_, ?_⟩
  · rw [OffcpuSession.handleEvent_eq, if_pos marked, named]
  · rw [sent, List.length_map, dumped_eq, List.length_ofFn]
  · intro j e at_
    rw [sent, List.getElem?_map, dumped_eq, List.getElem?_ofFn] at at_
    split at at_
    · rename_i inside
      have bound : schedCacheDumpStep * j < schedCacheSize := by
        simp only [schedCacheDumpStep, schedCacheSize]
        omega
      simp only [Option.map_some, Option.some.injEq] at at_
      subst at_
      have same : cache.records = (SchedCached.after x.ctx.cpu
          (recorded args x.ctx.cpu (past ++ [.switch ctx]))).records := by rw [held]
      have slot := after_slot x.ctx.cpu (recorded args x.ctx.cpu (past ++ [.switch ctx]))
        ⟨schedCacheDumpStep * j, bound⟩
      rw [← same] at slot
      exact ⟨_, slot, describes_copy env now x.ctx.cpu cache ⟨schedCacheDumpStep * j, bound⟩⟩
    · cases at_

/-- One wait that was too long makes 52 events besides its own. -/
theorem copies_reported_one_wait :
    ∃ s x, run step (new (openArgs 1)) oneWait = some s ∧ x ∈ s.emitted ∧
      ∀ (symSession : StackSession) (now : UInt64),
        let session : OffcpuSession :=
          { symSession := symSession, mapSchedCacheDump := s.maps.schedCacheBackup }
        ∃ copies, session.handleEvent now (x.event.bytes ++ []) =
          some (copies ++ [session.ownEvent now x.event]) ∧ copies.length = 52 := by
  -- The run emits one event, which is marked, and there is room for more copies than its own.
  obtain ⟨s, ran, only, marked, room⟩ : ∃ s, run step (new (openArgs 1)) oneWait = some s ∧
      s.emitted ≠ [] ∧ (∀ x ∈ s.emitted, x.event.isSchedCacheDump = 1) ∧
      s.maps.schedCacheBackup.size < maxBackups :=
    ⟨_, rfl, List.cons_ne_nil _ _, by decide +kernel, by decide +kernel⟩
  obtain ⟨x, member⟩ := List.exists_mem_of_ne_nil _ only
  refine ⟨s, x, ran, member, fun symSession now => ?_⟩
  obtain ⟨_, _, copies, _, sent, count, _⟩ := copies_reported (openArgs 1) oneWait s ran x member
    (marked x member) room
    { addSuffix := fun _ _ => "", bootTime := fun _ => [], parseHost := fun _ => none }
    symSession now []
  exact ⟨copies, sent, count⟩

end OffcpuTracer

end Spycat.Offcpu
