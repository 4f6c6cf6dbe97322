import Spycat.Detector.MemDetector
import Spycat.Ebpf.CachestatSession
import Spycat.Proofs.Exporter.SqliteLabels

/-! What is left of a page cache entry in the record of the detector and in its row. -/

namespace Spycat.Cachestat

open Lib

/-- A record holds what an entry says, with the number of bytes written as its metric. -/
structure InBlock (info : CacheInfo) (block : DataBlock) : Prop where
  metric : ∃ name value, block.metrics = [newIntMetric name value] ∧
    value.toInt = info.writeSize.toNat
  pid : HasNumber block.labels Model.pid info.pid.toNat
  cpu : HasNumber block.labels Model.cpu info.cpu.toNat
  comm : HasString block.labels Model.comm (goString info.comm.toList)
  file : HasString block.labels Model.file (goString info.file.toList)
  readSize : HasNumber block.labels Model.readSizeM info.readSize.toNat
  writeSize : HasNumber block.labels Model.writeSizeM info.writeSize.toNat
  cnt : HasNumber block.labels Model.count info.cnt.toNat

/-- A row holds what an entry says. -/
structure InRow (info : CacheInfo) (row : Sqlite.CACHESTAT) : Prop where
  pid : row.pid = info.pid
  cpu : row.cpu = info.cpu
  comm : row.comm = goString info.comm.toList
  file : row.file = goString info.file.toList
  readSize : row.readSizeM.toNat = info.readSize.toNat
  writeSize : row.writeSizeM.toNat = info.writeSize.toNat
  cnt : row.cnt.toNat = info.cnt.toNat

/-- An entry comes through the detector and the exporter as it is. -/
def Carried (info : CacheInfo) (event : SpyEvent) : Prop :=
  ∃ block row, MemDetector.processEvent event = some block ∧
    Sqlite.consume block = some (.cachestat row) ∧ InBlock info block ∧ InRow info row

/-- An entry of which nothing is lost: no count, nothing written, and names that end in time. -/
structure Plain (info : CacheInfo) : Prop where
  writeSize : info.writeSize = 0
  cnt : info.cnt = 0
  readSize : info.readSize.toNat < 2 ^ 32
  comm : 0 ∈ info.comm.toList ∨ info.file[0] = 0
  file : 0 ∈ info.file.toList ∨ info.readSize.toNat % 256 = 0

/-- The bytes of an entry, with those of both names between those of the numbers. -/
theorem bytes_eq (info : CacheInfo) :
    info.bytes = (lePut 4 info.pid.toNat ++ lePut 4 info.cpu.toNat) ++ (info.comm.toList ++
      (info.file.toList ++ (lePut 8 info.readSize.toNat ++ (lePut 8 info.writeSize.toNat ++
        lePut 8 info.cnt.toNat)))) := by
  -- Every field has an offset that its alignment divides.
  rw [CacheInfo.bytes, cStruct_packed (by simp [Packed]; decide)]
  simp [CField.u32, CField.u64, CField.chars]

/-- The name of the task is read as it is, or it runs into the name of the file. -/
theorem comm_eq_iff (value : MapValue) :
    value.comm = goString value.info.comm.toList ↔
      0 ∈ value.info.comm.toList ∨ value.info.file[0] = 0 := by
  -- The name of the file has a first character.
  obtain ⟨rest, file⟩ : ∃ rest, value.info.file.toList = value.info.file[0] :: rest := by
    have long : 0 < value.info.file.toList.length := by
      rw [Vector.length_toList]
      decide
    refine ⟨value.info.file.toList.tail, ?_⟩
    rw [← Vector.getElem_toList long, ← List.head_eq_getElem (List.ne_nil_of_length_pos long),
      List.cons_head_tail]
  have numbers : (lePut 4 value.info.pid.toNat ++ lePut 4 value.info.cpu.toNat).length = 8 := by
    simp
  rw [MapValue.comm, MapValue.stringAt, bytes_eq, List.append_assoc, List.drop_left' numbers,
    List.append_assoc, file, List.cons_append, List.cons_append]
  exact goString_append_eq_iff _ _ _

/-- The name of the file is read as it is, or it runs into the number of bytes read. -/
theorem file_eq_iff (value : MapValue) :
    value.file = goString value.info.file.toList ↔
      0 ∈ value.info.file.toList ∨ value.info.readSize.toNat % 256 = 0 := by
  -- The number stands with its lowest byte in front.
  have front : (lePut 4 value.info.pid.toNat ++ lePut 4 value.info.cpu.toNat ++
      value.info.comm.toList).length = 24 := by
    rw [List.length_append, Vector.length_toList, List.length_append, lePut_length, lePut_length]
    rfl
  have lowest : UInt8.ofNat value.info.readSize.toNat = 0 ↔
      value.info.readSize.toNat % 256 = 0 := by
    rw [← UInt8.toNat_inj]
    simp
  rw [MapValue.file, MapValue.stringAt, bytes_eq, ← List.append_assoc (lePut 4 _ ++ lePut 4 _),
    List.append_assoc (_ ++ Vector.toList _), List.drop_left' front, List.append_assoc, lePut,
    List.cons_append, List.cons_append, goString_append_eq_iff, lowest]

/-- The labels that are stored for an entry, in the order of its attributes. -/
def storedFor (value : MapValue) : List (String × AttributeValue) :=
  [(Model.comm, .string value.comm),
    (Model.file, .string value.file),
    (Model.pid, .int value.info.pid.toUInt64.toInt64),
    (Model.cpu, .int value.info.cpu.toUInt64.toInt64),
    (Model.count, .int value.info.cnt.toInt64),
    (Model.readSizeM, .int value.info.readSize.toInt64),
    (Model.writeSizeM, .int value.info.writeSize.toInt64)]

/-- An event carries all attributes of its entry. -/
theorem event_attributes (value : MapValue) (now : UInt64) :
    (value.event now).userAttributes = value.attributes :=
  -- There is room for all attributes of an entry.
  SpyEvent.userAttributes_bare (by simp [MapValue.attributes, spyEventFieldMax])

/-- The labels of an entry's event. -/
theorem formatCacheStat_event (value : MapValue) (now : UInt64) :
    MemDetector.formatCacheStat (value.event now) = storedLabels (storedFor value) := by
  -- Each attribute is looked up among the cases, and read back as it was set.
  rw [MemDetector.formatCacheStat, formatLabels_eq, event_attributes]
  simp only [MapValue.attributes, List.foldl_cons, List.foldl_nil, applyCase_int,
    applyCase_string, KeyValue.key_ofUint32, KeyValue.key_ofUint64, KeyValue.key_ofByteBuf,
    KeyValue.getUintValue_ofUint32, KeyValue.getUintValue_ofUint64, KeyValue.value_ofByteBuf,
    String.reduceEq, if_true, if_false]
  rfl

/-- The metric is looked up under a key that no attribute of an entry has. -/
theorem getUintUserAttribute_event (value : MapValue) (now : UInt64) :
    (value.event now).getUintUserAttribute "write_size" = 0 := by
  -- The sizes are sent under longer keys.
  rw [SpyEvent.getUintUserAttribute, SpyEvent.getUserAttribute, event_attributes]
  simp [MapValue.attributes]

/-- The record that the detector makes of an entry. -/
def blockOf (value : MapValue) (now : UInt64) : DataBlock :=
  newDataBlock Model.cacheStat (storedLabels (storedFor value)) now
    [newIntMetric Model.cacheStatMetricName 0]

/-- The detector makes that record of every entry's event. -/
theorem processEvent_event (value : MapValue) (now : UInt64) :
    MemDetector.processEvent (value.event now) = some (blockOf value now) := by
  -- Setting attributes leaves the name and the time of an event.
  have room : (SpyEvent.bare Model.cacheStat now { name := "", event := Model.cacheStat }
      { pid := 0, tid := 0, comm := [] }).userAttributes.length + value.attributes.length ≤
        spyEventFieldMax := by
    simp [SpyEvent.bare, MapValue.attributes, spyEventFieldMax]
  have name : (value.event now).name = Model.cacheStat := by
    rw [MapValue.event, SpyEvent.setUserAttributes_eq room]
    rfl
  have time : (value.event now).timeStamp = now := by
    rw [MapValue.event, SpyEvent.setUserAttributes_eq room]
    rfl
  rw [MemDetector.processEvent, if_pos name, MemDetector.cachestatHandler, formatCacheStat_event,
    getUintUserAttribute_event, time]
  rfl

/-- The row that the exporter makes of that record. -/
def rowOf (value : MapValue) : Sqlite.CACHESTAT where
  comm := value.comm
  pid := value.info.pid
  cpu := value.info.cpu
  readSizeM := value.info.readSize.toUInt32
  writeSizeM := value.info.writeSize.toUInt32
  cnt := 0
  file := value.file

/-- The exporter makes that row of every entry's record. -/
theorem consume_blockOf (value : MapValue) (now : UInt64) :
    Sqlite.consume (blockOf value now) = some (.cachestat (rowOf value)) := by
  -- The name of the record is compared with those of the other tables first.
  have named : (blockOf value now).name = Model.cacheStat := rfl
  have pid : Sqlite.uintLabel (storedLabels (storedFor value)) Model.pid = value.info.pid :=
    (Sqlite.uintLabel_stored rfl).trans (UInt32.toUInt32_toUInt64 _)
  have cpu : Sqlite.uintLabel (storedLabels (storedFor value)) Model.cpu = value.info.cpu :=
    (Sqlite.uintLabel_stored rfl).trans (UInt32.toUInt32_toUInt64 _)
  have readSize : Sqlite.uintLabel (storedLabels (storedFor value)) Model.readSizeM =
      value.info.readSize.toUInt32 := Sqlite.uintLabel_stored rfl
  have writeSize : Sqlite.uintLabel (storedLabels (storedFor value)) Model.writeSizeM =
      value.info.writeSize.toUInt32 := Sqlite.uintLabel_stored rfl
  have comm : (storedLabels (storedFor value)).getStringValue Model.comm = value.comm :=
    getStringValue_stored rfl
  have file : (storedLabels (storedFor value)).getStringValue Model.file = value.file :=
    getStringValue_stored rfl
  rw [Sqlite.consume, named, if_neg (by decide), if_neg (by decide), if_neg (by decide),
    if_neg (by decide), if_pos rfl]
  show some (Sqlite.Item.cachestat _) = _
  simp only [blockOf, newDataBlock, pid, cpu, readSize, writeSize, comm, file, rowOf]

/-- What an entry keeps on its way depends on the entry alone. -/
theorem carried_iff (value : MapValue) (now : UInt64) :
    Carried value.info (value.event now) ↔ Plain value.info := by
  constructor
  · rintro ⟨block, row, processed, consumed, inBlock, inRow⟩
    -- Record and row are the ones that are made, so each loss shows in one of them.
    rw [processEvent_event, Option.some.injEq] at processed
    subst processed
    rw [consume_blockOf, Option.some.injEq, Sqlite.Item.cachestat.injEq] at consumed
    subst consumed
    obtain ⟨name, metric, measured, size⟩ := inBlock.metric
    have nothing : metric = 0 := by
      simp only [blockOf, newDataBlock, newIntMetric, List.cons.injEq, Metric.mk.injEq,
        MetricData.int.injEq] at measured
      exact measured.1.2.symm
    have readSize : value.info.readSize.toNat % 2 ^ 32 = value.info.readSize.toNat := by
      rw [← UInt64.toNat_toUInt32]
      exact inRow.readSize
    exact
      { writeSize := by
          subst nothing
          apply UInt64.toNat_inj.mp
          have zero : (0 : Int64).toInt = 0 := rfl
          rw [zero] at size
          exact (Int.ofNat_eq_zero.mp size.symm)
        cnt := UInt64.toNat_inj.mp inRow.cnt.symm
        readSize := by omega
        comm := (comm_eq_iff value).mp inRow.comm
        file := (file_eq_iff value).mp inRow.file }
  · intro plain
    have comm := (comm_eq_iff value).mpr plain.comm
    have file := (file_eq_iff value).mpr plain.file
    have readSize := plain.readSize
    refine ⟨blockOf value now, rowOf value, processEvent_event value now,
      consume_blockOf value now, ?_, ?_⟩
    · exact
        { metric := ⟨_, 0, rfl, by rw [plain.writeSize]; rfl⟩
          pid := hasNumber_widened rfl
          cpu := hasNumber_widened rfl
          comm := (hasString_stored rfl).mpr comm
          file := (hasString_stored rfl).mpr file
          readSize := hasNumber_unsigned rfl (by omega)
          writeSize := hasNumber_unsigned rfl (by rw [plain.writeSize]; decide)
          cnt := hasNumber_unsigned rfl (by rw [plain.cnt]; decide) }
    · exact
        { pid := rfl
          cpu := rfl
          comm := comm
          file := file
          readSize := by
            show value.info.readSize.toUInt32.toNat = _
            rw [UInt64.toNat_toUInt32]
            omega
          writeSize := by
            show value.info.writeSize.toUInt32.toNat = _
            rw [plain.writeSize]
            rfl
          cnt := by
            rw [plain.cnt]
            rfl }

/--
What a round reports comes through as it is exactly where every entry is a plain one: nothing
was written, nothing was counted, less than 2^32 was read, and the names end in time.
-/
theorem reset_carried_iff (batch : List MapValue) (listed : List (Option MapValue))
    (now : MapValue → UInt64) :
    (∀ values events, getCacheStatMapValues batch listed = some values →
        reset batch listed now = some events →
        List.Forall₂ (fun value event => Carried value.info event) values events) ↔
      ∀ values, getCacheStatMapValues batch listed = some values →
        ∀ value ∈ values, Plain value.info := by
  -- Every entry that was read has an event of its own.
  have each : ∀ values : List MapValue,
      List.Forall₂ (fun value event => Carried value.info event) values
          (values.map fun value => value.event (now value)) ↔
        ∀ value ∈ values, Plain value.info := by
    intro values
    rw [List.forall₂_map_right_iff, List.forall₂_same]
    exact forall₂_congr fun value _ => carried_iff value (now value)
  constructor
  · intro carried values read
    exact (each values).mp (carried values _ read (by rw [reset, read]; rfl))
  · intro plain values events read sent
    rw [reset, read, Option.map_some, Option.some.injEq] at sent
    subst sent
    exact (each values).mpr (plain values read)

/-- An entry for one page that was written, with names of one letter. -/
def writtenPage : CacheInfo where
  pid := 7
  cpu := 1
  comm := .ofBytes taskCommLen [97]
  file := .ofBytes cacheFileSize [98]
  readSize := 0
  writeSize := 4096
  cnt := 1

/-- A page that was written and counted is reported with a metric of zero and no count. -/
theorem written_page_lost :
    ∃ event block row, reset [⟨writtenPage, []⟩] [] (fun _ => 0) = some [event] ∧
      MemDetector.processEvent event = some block ∧
      block.metrics = [newIntMetric Model.cacheStatMetricName 0] ∧
      Sqlite.consume block = some (.cachestat row) ∧ row.cnt = 0 ∧
      ¬ Carried writtenPage event := by
  -- Each stage is evaluated: the number of hits is not passed on by any.
  refine ⟨_, _, _, rfl, processEvent_event ⟨writtenPage, []⟩ 0, rfl,
    consume_blockOf ⟨writtenPage, []⟩ 0, rfl, fun carried => ?_⟩
  have plain := (carried_iff ⟨writtenPage, []⟩ 0).mp carried
  exact absurd plain.cnt (by decide)

end Spycat.Cachestat
