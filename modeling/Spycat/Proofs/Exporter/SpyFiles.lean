import Spycat.Exporter.SpyExporter
import Spycat.Lib.Run
import Spycat.Lib.TextBytes

/-! The file that the first record opens takes the records of all names. -/

namespace Spycat.Spy

open Lib

/-- No file operation ends with an error. -/
structure Environment.Works (env : Environment) : Prop where
  create : ∀ path, env.createError path = none
  write : ∀ path, env.writeError path = none

/-- The text that a record is encoded as, nothing where it cannot be encoded. -/
def Environment.encoding (env : Environment) (data : DataBlock) : Bytes :=
  match env.marshal data with
  | .ok bytes => bytes
  | .error _ => []

/-- The texts of records, one behind the other. -/
def Environment.encodings (env : Environment) (blocks : List DataBlock) : Bytes :=
  blocks.flatMap env.encoding

/-- The files hold the records that were put out, each in the file of its name and nowhere else. -/
structure Separated (env : Environment) (baseFilePath : String) (before : Assoc String Bytes)
    (blocks : List DataBlock) (files : Assoc String Bytes) : Prop where
  /-- The file of every name that occurs holds the texts of just the records with that name. -/
  own : ∀ data ∈ blocks, files.lookup (env.join baseFilePath ("ebpf_" ++ data.name)) =
    some (env.encodings (blocks.filter (·.name = data.name)))
  /-- All other files are as they were. -/
  other : ∀ path, (∀ data ∈ blocks, path ≠ env.join baseFilePath ("ebpf_" ++ data.name)) →
    files.lookup path = before.lookup path

section Outputs

variable {env : Environment}

/-- A text that is not empty is one that the record was encoded as. -/
theorem marshal_of_encoding {data : DataBlock} (encodes : env.encoding data ≠ []) :
    env.marshal data = .ok (env.encoding data) := by
  -- An error leaves no text.
  unfold Environment.encoding at encodes ⊢
  cases marshalled : env.marshal data with
  | error err => simp [marshalled] at encodes
  | ok bytes => rfl

/-- The first record opens the file of its name, and is all that this holds. -/
theorem output_first (works : env.Works) {f : FileOutputer} (closed : f.file = none)
    {data : DataBlock} (encodes : env.encoding data ≠ []) (files : Assoc String Bytes) :
    f.output env files data =
      ({ f with file := some (f.filePath env data.name) },
        files.insert (f.filePath env data.name) (env.encoding data), none) := by
  -- What the file held before is cut off when it is made.
  simp only [FileOutputer.output, FileOutputer.openFile, closed, works.create, works.write,
    marshal_of_encoding encodes, AList.lookup_insert, AList.insert_insert, Option.getD_some,
    List.nil_append]

/-- A later record goes behind what the open file holds. -/
theorem output_later (works : env.Works) {f : FileOutputer} {path : String}
    (opened : f.file = some path) {data : DataBlock} (encodes : env.encoding data ≠ [])
    {files : Assoc String Bytes} {held : Bytes} (holds : files.lookup path = some held) :
    f.output env files data =
      (f, files.insert path (held ++ env.encoding data), none) := by
  -- The open file is not made again.
  simp only [FileOutputer.output, FileOutputer.openFile, opened, works.write,
    marshal_of_encoding encodes, holds, Option.getD_some]

/-- An exporter into a file puts a record out as its outputer does. -/
theorem consume_file {s : System} {f f' : FileOutputer} {files : Assoc String Bytes}
    {data : DataBlock} {err : Option String} (outputer : s.exporter.outputer = some (.file f))
    (result : f.output env s.files data = (f', files, err)) :
    s.consume env data = some
      ({ s with exporter := { s.exporter with outputer := some (.file f') }, files := files },
        err) := by
  -- The exporter keeps what its outputer has become.
  simp only [System.consume, outputer, result]

/-- What holds after records were put out: the file of the first one has them all. -/
inductive Written (env : Environment) (baseFilePath : String) (files : Assoc String Bytes) :
    List DataBlock → System → Prop
  | nothing {f : FileOutputer} {s : System} (base : f.baseFilePath = baseFilePath)
      (closed : f.file = none) (outputer : s.exporter.outputer = some (.file f))
      (kept : s.files = files) : Written env baseFilePath files [] s
  | all {f : FileOutputer} {s : System} {first : DataBlock} {rest : List DataBlock}
      (base : f.baseFilePath = baseFilePath)
      (opened : f.file = some (f.filePath env first.name))
      (outputer : s.exporter.outputer = some (.file f))
      (written : s.files =
        files.insert (f.filePath env first.name) (env.encodings (first :: rest))) :
      Written env baseFilePath files (first :: rest) s

/-- Every record is written behind the ones before it. -/
theorem Written.step {baseFilePath : String} {files : Assoc String Bytes} {past : List DataBlock}
    {s : System} (written : Written env baseFilePath files past s) (works : env.Works)
    {data : DataBlock} (encodes : env.encoding data ≠ []) :
    ∃ next, s.consume env data = some (next, none) ∧
      Written env baseFilePath files (past ++ [data]) next := by
  -- The first record is the one that opens the file.
  cases written with
  | @nothing f _ base closed outputer kept =>
    have result := consume_file outputer (output_first works closed encodes s.files)
    refine ⟨_, result, .all (f := { f with file := some (f.filePath env data.name) }) base rfl rfl
      ?_⟩
    simp [Environment.encodings, FileOutputer.filePath, kept]
  | @all f _ first rest base opened outputer written =>
    have holds : s.files.lookup (f.filePath env first.name) =
        some (env.encodings (first :: rest)) := by rw [written, AList.lookup_insert]
    have result := consume_file outputer (output_later works opened encodes holds)
    refine ⟨_, result, .all base opened rfl ?_⟩
    simp [Environment.encodings, written]

end Outputs

/-- The texts that are kept and the ones that are left out are as long as all of them. -/
theorem length_encodings (env : Environment) (blocks : List DataBlock) (keeps : DataBlock → Bool) :
    (env.encodings (blocks.filter keeps)).length +
        (env.encodings (blocks.filter fun data => !keeps data)).length =
      (env.encodings blocks).length := by
  unfold Environment.encodings
  induction blocks with
  | nil => rfl
  | cons data rest ih =>
    -- The first text is on one of the two sides.
    cases kept : keeps data with
    | true =>
      simp only [List.filter_cons, kept, if_true, Bool.not_true, Bool.false_eq_true, if_false,
        List.flatMap_cons, List.length_append]
      omega
    | false =>
      simp only [List.filter_cons, kept, Bool.false_eq_true, if_false, Bool.not_false, if_true,
        List.flatMap_cons, List.length_append]
      omega

/-- Texts that are not empty are all there only where none is left out. -/
theorem encodings_filter_iff {env : Environment} (encodes : ∀ data, env.encoding data ≠ [])
    (blocks : List DataBlock) (keeps : DataBlock → Bool) :
    env.encodings (blocks.filter keeps) = env.encodings blocks ↔
      ∀ data ∈ blocks, keeps data = true := by
  constructor
  · intro same data member
    have lengths := length_encodings env blocks keeps
    rw [same] at lengths
    -- What is left out has no text, so it is nothing.
    have nothing : env.encodings (blocks.filter fun data => !keeps data) = [] :=
      List.eq_nil_of_length_eq_zero (by omega)
    by_contra dropped
    have left : data ∈ blocks.filter fun data => !keeps data :=
      List.mem_filter.mpr ⟨member, by simpa using dropped⟩
    exact encodes data (List.flatMap_eq_nil_iff.mp nothing data left)
  · intro all
    rw [List.filter_eq_self.mpr all]

/-- Once records were put out, each has its own name's file just where all have one name. -/
theorem Written.separated_iff {env : Environment} {baseFilePath : String}
    {files : Assoc String Bytes} {blocks : List DataBlock} {s : System}
    (written : Written env baseFilePath files blocks s)
    (encodes : ∀ data, env.encoding data ≠ []) :
    Separated env baseFilePath files blocks s.files ↔
      ∀ data ∈ blocks, ∀ other ∈ blocks, data.name = other.name := by
  cases written with
  | nothing base closed outputer kept =>
    -- Nothing was put out, and no file was touched.
    exact iff_of_true ⟨by simp, fun path _ => by rw [kept]⟩ (by simp)
  | @all f _ first rest base opened outputer written =>
    have path : ∀ name, env.join baseFilePath ("ebpf_" ++ name) = f.filePath env name :=
      fun name => by rw [FileOutputer.filePath, base]
    constructor
    · intro separated data member other member'
      -- The file of the first record holds all texts, so all have the name of the first.
      have whole := separated.own first List.mem_cons_self
      rw [path, written, AList.lookup_insert, Option.some.injEq] at whole
      have same := (encodings_filter_iff encodes (first :: rest) _).mp whole.symm
      simp only [decide_eq_true_eq] at same
      exact (same data member).trans (same other member').symm
    · intro same
      constructor
      · intro data member
        have named : first.name = data.name := same first List.mem_cons_self data member
        rw [path, ← named, written, AList.lookup_insert, Option.some.injEq, eq_comm,
          encodings_filter_iff encodes]
        simpa using fun other inside => (same first List.mem_cons_self other inside).symm
      · intro other differs
        have differs := differs first List.mem_cons_self
        rw [path] at differs
        rw [written, AList.lookup_insert_ne differs]

/-- An exporter into a file begins with no file open. -/
theorem newSpyExporter_file (env : Environment) {cfg : Config}
    (into : cfg.outPuter = "FileOutputer") (files : Assoc String Bytes) :
    ∃ exporter, newSpyExporter env (some cfg) = some exporter ∧
      Written env exporter.config.baseFilePath files []
        { exporter := exporter, files := files, terminal := [] } :=
  -- The file is not opened before the first record.
  ⟨_, if_pos into, .nothing rfl rfl rfl rfl⟩

/--
One exporter keeps the records of each name in the file of the name, all of them and nothing else,
exactly where all records have the same name: the first one opens the file, and the later ones go
into it too.
-/
theorem consume_separates (env : Environment) (works : env.Works)
    (encodes : ∀ data, env.encoding data ≠ []) (cfg : Config)
    (into : cfg.outPuter = "FileOutputer") (files : Assoc String Bytes)
    (blocks : List DataBlock) :
    ∃ exporter s, newSpyExporter env (some cfg) = some exporter ∧
      run (System.step env) { exporter := exporter, files := files, terminal := [] } blocks =
        some s ∧
      (Separated env exporter.config.baseFilePath files blocks s.files ↔
        ∀ data ∈ blocks, ∀ other ∈ blocks, data.name = other.name) := by
  obtain ⟨exporter, made, initial⟩ := newSpyExporter_file env into files
  -- Every record is put out, so the exporter gets through all of them.
  have goes : ∀ past state data, Written env exporter.config.baseFilePath files past state →
      ∃ next, state.step env data = some next ∧
        Written env exporter.config.baseFilePath files (past ++ [data]) next := by
    intro past state data written
    obtain ⟨next, consumed, further⟩ := written.step works (encodes data)
    exact ⟨next, by simp [System.step, consumed], further⟩
  obtain ⟨s, ran, written⟩ := run_progress _ initial goes blocks
  exact ⟨exporter, s, made, ran, written.separated_iff encodes⟩

/-- A record without metrics and labels as JSON text. -/
def emptyBlockText (data : DataBlock) : String :=
  "\x7b" ++ ("\"name\":\"" ++ data.name ++
    "\",\"metrics\":null,\"labels\":\x7b\x7d,\"timestamp\":" ++
    toString data.timestamp.toNat ++ "\x7d")

/-- A disk on which all directories are there and all goes well. -/
def emptyBlocks : Environment where
  marshal := fun data => .ok (emptyBlockText data).toUTF8.toList
  join := fun directory file => directory ++ "/" ++ file
  statError := fun _ => none
  createError := fun _ => none
  writeError := fun _ => none

/-- A record of a name, without anything else. -/
def blockOf (name : String) : DataBlock := newDataBlock name ∅ 0 []

/-- All that is encoded has some text. -/
theorem emptyBlocks_encodes (data : DataBlock) : emptyBlocks.encoding data ≠ [] := by
  -- The text begins with a brace.
  show (emptyBlockText data).toUTF8.toList ≠ []
  rw [emptyBlockText, toUTF8_append]
  exact List.append_ne_nil_of_left_ne_nil (by decide +kernel) _

/-- Two records of one name are kept in the file of the name. -/
theorem consume_separates_oncpu :
    ∃ exporter s, newSpyExporter emptyBlocks (some newConfig) = some exporter ∧
      run (System.step emptyBlocks) { exporter := exporter, files := ∅, terminal := [] }
        [blockOf "oncpu", blockOf "oncpu"] = some s ∧
      Separated emptyBlocks exporter.config.baseFilePath ∅ [blockOf "oncpu", blockOf "oncpu"]
        s.files := by
  -- Both records have the same name.
  obtain ⟨exporter, s, made, ran, separated⟩ := consume_separates emptyBlocks
    ⟨fun _ => rfl, fun _ => rfl⟩ emptyBlocks_encodes newConfig rfl ∅
    [blockOf "oncpu", blockOf "oncpu"]
  exact ⟨exporter, s, made, ran, separated.mpr (by simp)⟩

/-- With a record of each of two tools, the second is in the file of the first. -/
theorem consume_separates_mixed :
    ∃ exporter s, newSpyExporter emptyBlocks (some newConfig) = some exporter ∧
      run (System.step emptyBlocks) { exporter := exporter, files := ∅, terminal := [] }
        [blockOf "oncpu", blockOf "offcpu"] = some s ∧
      s.files.lookup "/tmp/spycat/ebpf_offcpu" = none ∧
      s.files.lookup "/tmp/spycat/ebpf_oncpu" = some
        (emptyBlocks.encoding (blockOf "oncpu") ++ emptyBlocks.encoding (blockOf "offcpu")) ∧
      ¬Separated emptyBlocks exporter.config.baseFilePath ∅ [blockOf "oncpu", blockOf "offcpu"]
        s.files := by
  refine ⟨_, _, rfl, rfl, by decide +kernel, by decide +kernel, fun separated => ?_⟩
  -- The file of the second record is not there at all.
  have held := separated.own (blockOf "offcpu") (by simp)
  exact absurd (congrArg Option.isSome held) (by decide +kernel)

end Spycat.Spy
