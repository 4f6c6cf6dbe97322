import Spycat.Ebpf.CachestatRounds
import Spycat.Lib.Run
import Spycat.Proofs.Ebpf.CachestatChain
import Spycat.Proofs.Ebpf.CachestatSums

/-! The rows of the page cache tracer's rounds are running totals of what the hooks saw. -/

namespace Spycat.Cachestat

open Lib Bpf Reader

/-- The settings that a configuration stands for. -/
def CACHESTAT.meant (cfg : CACHESTAT) : UserArgs where
  pid := cfg.pid.toUInt64.toUInt32
  cacheType := cfg.cacheType.toUInt64.toUInt32
  cpu := cfg.cpu.toUInt64.toUInt32

/-- The kernel reads the settings as they were configured. -/
theorem kernelArgs_eq (cfg : CACHESTAT) : kernelArgs cfg = some cfg.meant := by
  -- The padding of the session's struct stands behind the three fields of both.
  have fields := (reads_done UserArgs.mk).next (reads_uint32 cfg.meant.pid)
    |>.next (reads_uint32 cfg.meant.cacheType) |>.next (reads_uint32 cfg.meant.cpu)
  have bytes : (newCacheStatBpfSession cfg).initArgsMap.bytes =
      ([] ++ lePut 4 cfg.meant.pid.toNat ++ lePut 4 cfg.meant.cacheType.toNat ++
        lePut 4 cfg.meant.cpu.toNat) ++ lePut 4 0 := by
    rw [CacheStatArgs.bytes, cStruct_packed (by simp [Packed])]
    simp [CField.u32, CacheStatArgs.initArgsMap, newCacheStatBpfSession, CACHESTAT.meant]
  rw [kernelArgs, bytes]
  exact fields.run _

/-- A configuration whose numbers the kernel can tell apart. -/
structure CACHESTAT.Valid (cfg : CACHESTAT) : Prop where
  pid : -1 ≤ cfg.pid.toInt ∧ cfg.pid.toInt < 2 ^ 32 - 1
  cpu : -1 ≤ cfg.cpu.toInt ∧ cfg.cpu.toInt < 2 ^ 32 - 1
  cacheType : 0 ≤ cfg.cacheType.toInt ∧ cfg.cacheType.toInt ≤ 2

/-- A hit is one that a configuration asks for; a number of -1 asks for all. -/
structure CACHESTAT.Selects (cfg : CACHESTAT) (hit : Hit) : Prop where
  pid : cfg.pid.toInt = -1 ∨ cfg.pid.toInt = hit.ctx.key.pid.toNat
  cpu : cfg.cpu.toInt = -1 ∨ cfg.cpu.toInt = hit.ctx.cpu.toNat
  cacheType : match hit with
    | .write _ => cfg.cacheType.toInt ≠ 1
    | .read _ => cfg.cacheType.toInt ≠ 2

/-- A number that fits is cut to 32 bits as it is, and -1 to the greatest number. -/
theorem toNat_narrowed {value : Int64}
    (fits : -1 ≤ value.toInt ∧ value.toInt < 2 ^ 32 - 1) :
    (value.toUInt64.toUInt32.toNat : Int) =
      if value.toInt = -1 then 2 ^ 32 - 1 else value.toInt := by
  -- The number that is kept is the remainder.
  have kept := toNat_narrow value
  split <;> omega

/-- A setting that stands for all or for one number lets exactly these pass. -/
theorem passes_iff {value : Int64} (fits : -1 ≤ value.toInt ∧ value.toInt < 2 ^ 32 - 1)
    (number : Nat) :
    (value.toUInt64.toUInt32 = 0xFFFFFFFF ∨ value.toUInt64.toUInt32.toNat = number) ↔
      value.toInt = -1 ∨ value.toInt = number := by
  -- Within the bounds, only -1 is cut to the number that stands for all.
  have kept := toNat_narrowed fits
  have all : value.toUInt64.toUInt32 = 0xFFFFFFFF ↔
      value.toUInt64.toUInt32.toNat = 2 ^ 32 - 1 := by
    rw [← UInt32.toNat_inj]
    rfl
  rw [all]
  split at kept <;> omega

/-- A setting that is compared as a wider number is the number itself. -/
theorem widened_eq_iff (setting : UInt32) (number : UInt64) :
    setting.toUInt64 = number ↔ setting.toNat = number.toNat := by
  -- Both are the same natural number.
  rw [← UInt64.toNat_inj, UInt32.toNat_toUInt64]

/-- What settings let pass, with a number of all ones for all. -/
theorem accepts_iff (args : UserArgs) (excluding : UInt32) (ctx : HookCtx) :
    args.accepts excluding ctx ↔
      ((args.pid = 0xFFFFFFFF ∨ args.pid.toNat = ctx.key.pid.toNat) ∧
        (args.cpu = 0xFFFFFFFF ∨ args.cpu.toNat = ctx.cpu.toNat)) ∧
          args.cacheType ≠ excluding := by
  -- The hook compares numbers of 32 bits with ones of 64.
  rw [← widened_eq_iff, UInt32.toNat_inj]
  simp [UserArgs.accepts]

/-- The settings let exactly the hits pass that a configuration asks for. -/
theorem accepted_iff {cfg : CACHESTAT} (valid : cfg.Valid) (hit : Hit) :
    hit.accepted cfg.meant ↔ cfg.Selects hit := by
  -- Both hooks look at the process and at the CPU alike.
  have alike : ∀ (excluding : UInt32) (ctx : HookCtx), cfg.meant.accepts excluding ctx ↔
      ((cfg.pid.toInt = -1 ∨ cfg.pid.toInt = ctx.key.pid.toNat) ∧
        (cfg.cpu.toInt = -1 ∨ cfg.cpu.toInt = ctx.cpu.toNat)) ∧
          cfg.meant.cacheType ≠ excluding := by
    intro excluding ctx
    rw [← passes_iff valid.pid, ← passes_iff valid.cpu]
    exact accepts_iff cfg.meant excluding ctx
  have kept := toNat_narrow cfg.cacheType
  obtain ⟨least, most⟩ := valid.cacheType
  have type_ : cfg.meant.cacheType.toNat = cfg.cacheType.toInt := by
    show (cfg.cacheType.toUInt64.toUInt32.toNat : Int) = _
    omega
  cases hit with
  | write ctx =>
    have writes : cfg.meant.cacheType ≠ readCache ↔ cfg.cacheType.toInt ≠ 1 := by
      rw [← type_, ne_eq, ← UInt32.toNat_inj]
      exact not_congr Int.ofNat_inj.symm
    exact ((alike readCache ctx).trans (and_congr_right fun _ => writes)).trans
      ⟨fun ⟨⟨pid, cpu⟩, kind⟩ => ⟨pid, cpu, kind⟩, fun ⟨pid, cpu, kind⟩ => ⟨⟨pid, cpu⟩, kind⟩⟩
  | read ctx =>
    have reads : cfg.meant.cacheType ≠ writeCache ↔ cfg.cacheType.toInt ≠ 2 := by
      rw [← type_, ne_eq, ← UInt32.toNat_inj]
      exact not_congr Int.ofNat_inj.symm
    exact ((alike writeCache ctx).trans (and_congr_right fun _ => reads)).trans
      ⟨fun ⟨⟨pid, cpu⟩, kind⟩ => ⟨pid, cpu, kind⟩, fun ⟨pid, cpu, kind⟩ => ⟨⟨pid, cpu⟩, kind⟩⟩

/-- The hits among the actions of a run. -/
def hitsOf (actions : List CacheStatAction) : List Hit :=
  actions.filterMap fun
    | .hit hit => some hit
    | _ => none

/-- Hits come one after the other. -/
theorem hitsOf_append (first second : List CacheStatAction) :
    hitsOf (first ++ second) = hitsOf first ++ hitsOf second := List.filterMap_append

section Map

variable {args : UserArgs} {hits past : List Hit}

/-- A map that is never full was never full before. -/
theorem NeverFull.before (never : NeverFull args hits) (inside : past <+: hits) :
    NeverFull args past := fun earlier next within => never earlier next (within.trans inside)

/-- An accepted hit has its key listed from then on. -/
theorem listed_of_accepted (never : NeverFull args hits) {hit : Hit} (member : hit ∈ hits)
    (accepted : hit.accepted args) : hit.ctx.key ∈ (entriesAfter args hits).keys := by
  -- It is one of the hits of its key, so there is an entry.
  have own : hit ∈ acceptedUnder args hit.ctx.key hits := by
    simp [acceptedUnder, member, accepted]
  rw [← AList.mem_keys, ← AList.lookup_isSome]
  exact (entriesAfter_accounts never _).1.mpr (List.ne_nil_of_mem own)

/-- No hook takes an entry away. -/
theorem step_keeps {entries : CachestatMap} {key : CacheKey} (hit : Hit)
    (present : (entries.lookup key).isSome) : ((hit.step args entries).lookup key).isSome := by
  by_cases own : hit.accepted args ∧ hit.ctx.key = key
  · -- With an entry there is no need for room.
    obtain ⟨accepted, rfl⟩ := own
    exact (step_accepted accepted (.inl present)).1
  · by_cases accepted : hit.accepted args
    · rw [step_other fun same => own ⟨accepted, same⟩]
      exact present
    · rw [step_refused accepted]
      exact present

/-- An entry names its process, and the CPU of the last hit. -/
structure Named (key : CacheKey) (hits : List Hit) (info : CacheInfo) : Prop where
  pid : info.pid = key.pid.toUInt32
  cpu : ∃ last, hits.getLast? = some last ∧ info.cpu = last.ctx.cpu

/-- A hook leaves an entry that names the process of an earlier one, and its own CPU. -/
theorem vfsHook_names {excluding : UInt32} {size : CacheInfo → UInt64}
    {setSize : CacheInfo → UInt64 → CacheInfo} {entries : CachestatMap} {ctx : HookCtx}
    {info : CacheInfo} (sizeOnly : ∀ info size, (setSize info size).pid = info.pid ∧
      (setSize info size).cpu = info.cpu)
    (accepted : args.accepts excluding ctx)
    (pids : ∀ old, entries.lookup ctx.key = some old → old.pid = ctx.key.pid.toUInt32)
    (left : (vfsHook excluding size setSize args entries ctx).lookup ctx.key = some info) :
    info.pid = ctx.key.pid.toUInt32 ∧ info.cpu = ctx.cpu := by
  -- The hook sets the CPU, keeps the process of an old entry, and sets that of a new one.
  have upserted := @vfsHook_upserted _ entries _ size setSize _ accepted
  generalize vfsHook excluding size setSize args entries ctx = entries' at upserted left
  cases upserted with
  | @changed old present =>
    rw [AList.lookup_insert, Option.some.injEq] at left
    subst left
    exact ⟨(sizeOnly { old with cpu := ctx.cpu } _).1.trans (pids old present), (sizeOnly _ _).2⟩
  | added absent =>
    rw [AList.lookup_insert, Option.some.injEq] at left
    subst left
    exact ⟨(sizeOnly _ _).1, (sizeOnly _ _).2⟩
  | refused absent => simp [absent] at left

/-- An accepted hit leaves an entry that names the process of an earlier one, and its own CPU. -/
theorem step_names {entries : CachestatMap} {hit : Hit} {info : CacheInfo}
    (accepted : hit.accepted args)
    (pids : ∀ old, entries.lookup hit.ctx.key = some old → old.pid = hit.ctx.key.pid.toUInt32)
    (left : (hit.step args entries).lookup hit.ctx.key = some info) :
    info.pid = hit.ctx.key.pid.toUInt32 ∧ info.cpu = hit.ctx.cpu := by
  -- Neither hook writes anything but its own size besides.
  cases hit with
  | write ctx =>
    exact @vfsHook_names args readCache (·.writeSize)
      (fun info size => { info with writeSize := size }) entries ctx info
      (fun _ _ => ⟨rfl, rfl⟩) accepted pids left
  | read ctx =>
    exact @vfsHook_names args writeCache (·.readSize)
      (fun info size => { info with readSize := size }) entries ctx info
      (fun _ _ => ⟨rfl, rfl⟩) accepted pids left

/-- The entries name what their accepted hits say. -/
theorem entriesAfter_named (hits : List Hit) {key : CacheKey} {info : CacheInfo}
    (found : (entriesAfter args hits).lookup key = some info) :
    Named key (acceptedUnder args key hits) info := by
  -- Only an accepted hit of the key touches its entry.
  induction hits using List.reverseRecOn generalizing info with
  | nil => simp [entriesAfter] at found
  | append_singleton past hit ih =>
    rw [entriesAfter_append] at found
    rw [acceptedUnder_append]
    by_cases own : hit.accepted args ∧ hit.ctx.key = key
    · obtain ⟨accepted, rfl⟩ := own
      obtain ⟨pid, cpu⟩ := step_names accepted (fun old stored => (ih stored).pid) found
      exact ⟨pid, hit, by simp [accepted], cpu⟩
    · rw [if_neg own, List.append_nil]
      refine ih (found.symm.trans ?_).symm
      by_cases accepted : hit.accepted args
      · exact step_other fun same => own ⟨accepted, same⟩
      · rw [step_refused accepted]

end Map

/-- The lower half of a number of bytes is counted as it is, whatever becomes of the upper half. -/
theorem counted_low (ctx : HookCtx) : ctx.counted.toNat % 2 ^ 32 = ctx.count.toNat % 2 ^ 32 := by
  -- A sign adds ones to the upper half only.
  rw [HookCtx.counted, toNat_signExtended]
  split <;> omega

/-- The lower halves of the totals are right for all hits. -/
theorem foldl_plus_low (hits : List Hit) :
    (hits.foldl Account.plus .zero).read.toNat % 2 ^ 32 =
        (hits.map (·.bytesRead)).sum % 2 ^ 32 ∧
      (hits.foldl Account.plus .zero).written.toNat % 2 ^ 32 =
        (hits.map (·.bytesWritten)).sum % 2 ^ 32 := by
  -- Each hit adds the lower half of its number.
  induction hits using List.reverseRecOn with
  | nil => exact ⟨rfl, rfl⟩
  | append_singleton past hit ih =>
    obtain ⟨read, written⟩ := ih
    cases hit with
    | write ctx =>
      have low := counted_low ctx
      have none_ : (Hit.write ctx).bytesRead = 0 := rfl
      have own : (Hit.write ctx).bytesWritten = ctx.count.toNat := rfl
      simp only [List.foldl_append, List.foldl_cons, List.foldl_nil, Account.plus, List.map_append,
        List.map_cons, List.map_nil, List.sum_append, List.sum_singleton, none_, own,
        UInt64.toNat_add]
      omega
    | read ctx =>
      have low := counted_low ctx
      have own : (Hit.read ctx).bytesRead = ctx.count.toNat := rfl
      have none_ : (Hit.read ctx).bytesWritten = 0 := rfl
      simp only [List.foldl_append, List.foldl_cons, List.foldl_nil, Account.plus, List.map_append,
        List.map_cons, List.map_nil, List.sum_append, List.sum_singleton, none_, own,
        UInt64.toNat_add]
      omega

/-- A row tells of the hits of a key, with their totals cut to 32 bits and without their number. -/
structure Tells (key : CacheKey) (hits : List Hit) (row : Sqlite.CACHESTAT) : Prop where
  pid : row.pid = key.pid.toUInt32
  cpu : ∃ last, hits.getLast? = some last ∧ row.cpu = last.ctx.cpu
  readSize : row.readSizeM.toNat = (hits.map (·.bytesRead)).sum % 2 ^ 32
  writeSize : row.writeSizeM.toNat = (hits.map (·.bytesWritten)).sum % 2 ^ 32
  cnt : row.cnt = 0

/-- The row of an event tells of the hits of a key. -/
def Reports (key : CacheKey) (hits : List Hit) (event : SpyEvent) : Prop :=
  ∃ block row, MemDetector.processEvent event = some block ∧
    Sqlite.consume block = some (.cachestat row) ∧ Tells key hits row

/-- The row of an entry tells of all accepted hits of its key. -/
theorem entry_reports {args : UserArgs} {hits : List Hit} (never : NeverFull args hits)
    {key : CacheKey} {info : CacheInfo} (found : (entriesAfter args hits).lookup key = some info)
    (behind : Bytes) (now : UInt64) :
    Reports key (acceptedUnder args key hits)
      (MapValue.event { info := info, behind := behind } now) := by
  -- The entry is the account of the hits, and the row has the lower halves of its sizes.
  obtain ⟨pid, cpu⟩ := entriesAfter_named hits found
  have account := (entriesAfter_accounts never key).2
  rw [found] at account
  obtain ⟨read, written⟩ := foldl_plus_low (acceptedUnder args key hits)
  rw [← account] at read written
  refine ⟨_, _, processEvent_event _ now, consume_blockOf _ now, pid, cpu, ?_, ?_, rfl⟩
  · exact (UInt64.toNat_toUInt32 _).trans read
  · exact (UInt64.toNat_toUInt32 _).trans written

namespace CacheStatTracer

/-- What a step does, by what it finds. -/
inductive Stepped (s : CacheStatTracer) : CacheStatAction → CacheStatTracer → Prop
  | hit (hit : Hit) :
      Stepped s (.hit hit) { s with cachestatMap := hit.step s.args s.cachestatMap }
  | reset (idle : s.phase = .idle) :
      Stepped s .reset { s with phase := .batch s.cachestatMap.keys [] }
  | takeKey {due : List CacheKey} {read : List Entry} {key : CacheKey} {info : CacheInfo}
      (here : s.phase = .batch due read) (found : s.cachestatMap.lookup key = some info)
      (fresh : key ∉ read.map (·.1)) :
      Stepped s (.takeKey key) { s with phase := .batch due (read ++ [(key, info)]) }
  | next {due : List CacheKey} {read : List Entry} {key : CacheKey} {info : CacheInfo}
      (here : s.phase = .iterate due read) (found : s.cachestatMap.lookup key = some info)
      (fresh : key ∉ read.map (·.1)) :
      Stepped s (.next key) { s with phase := .getValue due read key }
  | value {due : List CacheKey} {read : List Entry} {key : CacheKey} {info : CacheInfo}
      (here : s.phase = .getValue due read key) (found : s.cachestatMap.lookup key = some info) :
      Stepped s (.getValue false) { s with phase := .iterate due (read ++ [(key, info)]) }
  | failure {due : List CacheKey} {read : List Entry} {key : CacheKey} {failed : Bool}
      (here : s.phase = .getValue due read key)
      (why : s.cachestatMap.lookup key = none ∨ failed = true) :
      Stepped s (.getValue failed) { s with phase := .idle }
  | send {done todo : List Entry} {entry : Entry} (here : s.phase = .send done (entry :: todo))
      (behind : Bytes) (now : UInt64) :
      Stepped s (.send behind now)
        { s with
          sent := s.sent ++ [MapValue.event { info := entry.2, behind := behind } now]
          phase := .send (done ++ [entry]) todo }
  | fallback {due : List CacheKey} (here : s.phase = .batch due []) :
      Stepped s .proceed { s with phase := .iterate s.cachestatMap.keys [] }
  | walked {due : List CacheKey} {read : List Entry}
      (here : s.phase = .batch due read ∨ s.phase = .iterate due read)
      (passed : due ⊆ read.map (·.1)) :
      Stepped s .proceed { s with phase := .send [] read }
  | finished {done : List Entry} (here : s.phase = .send done []) :
      Stepped s .proceed { s with phase := .idle }

/-- A step does one of these. -/
theorem step_cases {s s' : CacheStatTracer} {action : CacheStatAction}
    (taken : s.step action = some s') : Stepped s action s' := by
  -- There is one case for each phase that an action fits to; in all others there is no step.
  cases action with
  | hit hit =>
    cases taken
    exact .hit hit
  | reset =>
    simp only [step] at taken
    split at taken
    · rename_i here
      cases taken
      exact .reset here
    · cases taken
  | takeKey key =>
    simp only [step] at taken
    split at taken
    · rename_i here found
      split at taken
      · cases taken
      · rename_i fresh
        cases taken
        exact .takeKey here found fresh
    · cases taken
  | next key =>
    simp only [step] at taken
    split at taken
    · rename_i here found
      split at taken
      · cases taken
      · rename_i fresh
        cases taken
        exact .next here found fresh
    · cases taken
  | getValue failed =>
    simp only [step] at taken
    split at taken
    · rename_i due read key here
      cases found : s.cachestatMap.lookup key with
      | none =>
        simp only [found] at taken
        cases taken
        exact .failure here (.inl found)
      | some info =>
        cases failed with
        | true =>
          simp only [found] at taken
          cases taken
          exact .failure here (.inr rfl)
        | false =>
          simp only [found] at taken
          cases taken
          exact .value here found
    · cases taken
  | send behind now =>
    simp only [step] at taken
    split at taken
    · rename_i here
      cases taken
      exact .send here behind now
    · cases taken
  | proceed =>
    obtain ⟨phase, moved, rfl⟩ := Option.map_eq_some_iff.mp taken
    simp only [CacheStatTracer.proceed] at moved
    split at moved
    · rename_i here
      split at moved
      · rename_i none_
        cases moved
        subst none_
        exact .fallback here
      · split at moved
        · rename_i passed
          cases moved
          exact .walked (.inl here) passed
        · cases moved
    · rename_i here
      split at moved
      · rename_i passed
        cases moved
        exact .walked (.inr here) passed
      · cases moved
    · rename_i here
      cases moved
      exact .finished here
    · cases moved

/-- The map goes on being the one after the hits. -/
theorem stepped_map {args : UserArgs} {past : List CacheStatAction} {action : CacheStatAction}
    {s s' : CacheStatTracer} (stepped : Stepped s action s')
    (held : s.args = args ∧ s.cachestatMap = entriesAfter args (hitsOf past)) :
    s'.args = args ∧ s'.cachestatMap = entriesAfter args (hitsOf (past ++ [action])) := by
  -- Only a hit changes the map.
  obtain ⟨told, map⟩ := held
  rw [hitsOf_append]
  cases stepped with
  | hit hit => exact ⟨told, by rw [told, map]; exact (entriesAfter_append _ _).symm⟩
  | _ => exact ⟨told, by rw [map]; simp [hitsOf]⟩

/-- The map after some actions is the one after their hits. -/
theorem map_run {args : UserArgs} {actions : List CacheStatAction} {s : CacheStatTracer}
    (ran : run step (new args) actions = some s) :
    s.args = args ∧ s.cachestatMap = entriesAfter args (hitsOf actions) := by
  -- Each step keeps it so.
  refine run_history (fun past state => state.args = args ∧
    state.cachestatMap = entriesAfter args (hitsOf past)) ⟨rfl, rfl⟩ ?_ ran
  intro past state action next held taken
  exact stepped_map (step_cases taken) held

/-- Entries that a round has read: one of each key, each as it was at some time of the round. -/
structure ReadIn (args : UserArgs) (before past : List CacheStatAction) (read : List Entry) :
    Prop where
  once : (read.map (·.1)).Nodup
  found : ∀ entry ∈ read, ∃ passed, passed <+: past ∧
    (entriesAfter args (hitsOf (before ++ passed))).lookup entry.1 = some entry.2

/-- The keys of all accepted hits are among some keys. -/
def Covers (args : UserArgs) (before : List CacheStatAction) (keys : List CacheKey) : Prop :=
  ∀ hit ∈ hitsOf before, hit.accepted args → hit.ctx.key ∈ keys

/-- An event is the one for an entry, whatever is behind it and whenever it is sent. -/
def Sends (entry : Entry) (event : SpyEvent) : Prop :=
  ∃ behind now, event = MapValue.event { info := entry.2, behind := behind } now

/-- What a round has read and sent so far, by where it stands. -/
inductive Stands (args : UserArgs) (before past : List CacheStatAction)
    (earlier sent : List SpyEvent) : Phase → Prop
  | batch {due : List CacheKey} {read : List Entry} (covers : Covers args before due)
      (so : ReadIn args before past read) (same : sent = earlier) :
      Stands args before past earlier sent (.batch due read)
  | iterate {due : List CacheKey} {read : List Entry} (covers : Covers args before due)
      (so : ReadIn args before past read) (same : sent = earlier) :
      Stands args before past earlier sent (.iterate due read)
  | getValue {due : List CacheKey} {read : List Entry} {key : CacheKey}
      (covers : Covers args before due) (so : ReadIn args before past read)
      (same : sent = earlier) (fresh : key ∉ read.map (·.1))
      (present : ((entriesAfter args (hitsOf (before ++ past))).lookup key).isSome) :
      Stands args before past earlier sent (.getValue due read key)
  | send {done todo : List Entry} {events : List SpyEvent}
      (covers : Covers args before ((done ++ todo).map (·.1)))
      (so : ReadIn args before past (done ++ todo)) (more : sent = earlier ++ events)
      (each : List.Forall₂ Sends done events) :
      Stands args before past earlier sent (.send done todo)
  | finished {done : List Entry} {events : List SpyEvent}
      (covers : Covers args before (done.map (·.1))) (so : ReadIn args before past done)
      (more : sent = earlier ++ events) (each : List.Forall₂ Sends done events) :
      Stands args before past earlier sent .idle

section Round

variable {args : UserArgs} {before past : List CacheStatAction} {read : List Entry}
  {earlier : List SpyEvent} {s s' : CacheStatTracer} {action : CacheStatAction}

/-- What was read stays read. -/
theorem ReadIn.later (so : ReadIn args before past read) (action : CacheStatAction) :
    ReadIn args before (past ++ [action]) read := by
  -- A time of the round so far is one of the longer round.
  refine ⟨so.once, fun entry member => ?_⟩
  obtain ⟨passed, inside, found⟩ := so.found entry member
  exact ⟨passed, inside.trans (List.prefix_append ..), found⟩

/-- One more entry is read as it is now. -/
theorem ReadIn.take (so : ReadIn args before past read) {key : CacheKey} {info : CacheInfo}
    (fresh : key ∉ read.map (·.1))
    (found : (entriesAfter args (hitsOf (before ++ past))).lookup key = some info)
    (action : CacheStatAction) :
    ReadIn args before (past ++ [action]) (read ++ [(key, info)]) := by
  -- The new entry was found now, and its key was not among those read before.
  constructor
  · rw [List.map_append, List.nodup_append]
    refine ⟨so.once, List.nodup_singleton _, ?_⟩
    intro other member own inside
    rw [List.map_singleton, List.mem_singleton] at inside
    subst inside
    exact fun same => fresh (same ▸ member)
  · intro entry member
    rcases List.mem_append.mp member with old | new
    · exact (so.later action).found entry old
    · rw [List.mem_singleton] at new
      subst new
      exact ⟨past, List.prefix_append .., found⟩

/-- The keys that are listed at some time of a round cover the hits before the round. -/
theorem covers_keys (never : NeverFull args (hitsOf (before ++ past))) :
    Covers args before (entriesAfter args (hitsOf (before ++ past))).keys := by
  -- Those hits are among the ones so far.
  intro hit member accepted
  refine listed_of_accepted never ?_ accepted
  rw [hitsOf_append]
  exact List.mem_append_left _ member

/-- A key that is listed stays listed, whatever happens next. -/
theorem present_later {key : CacheKey} (action : CacheStatAction)
    (present : ((entriesAfter args (hitsOf (before ++ past))).lookup key).isSome) :
    ((entriesAfter args (hitsOf (before ++ (past ++ [action])))).lookup key).isSome := by
  -- Only a hit changes the map, and it takes no entry away.
  rw [← List.append_assoc, hitsOf_append (before ++ past)]
  cases action with
  | hit hit =>
    show ((entriesAfter args (hitsOf (before ++ past) ++ [hit])).lookup key).isSome
    rw [entriesAfter_append]
    exact step_keeps hit present
  | _ => simpa [hitsOf] using present

/-- A step of a round other than a failure leaves what is read and sent as it should be. -/
theorem stands_step (held : s.cachestatMap = entriesAfter args (hitsOf (before ++ past)))
    (never : NeverFull args (hitsOf (before ++ past)))
    (stands : Stands args before past earlier s.sent s.phase) (stepped : Stepped s action s')
    (alone : action ≠ .reset) (fine : action ≠ .getValue true) :
    Stands args before (past ++ [action]) earlier s'.sent s'.phase := by
  cases stepped with
  | hit hit =>
    -- A hit may change entries, but what was read was read before, and a key that is given stays.
    show Stands _ _ _ _ s.sent s.phase
    generalize s.phase = phase at stands
    cases stands with
    | batch covers so same => exact .batch covers (so.later _) same
    | iterate covers so same => exact .iterate covers (so.later _) same
    | getValue covers so same fresh present =>
      exact .getValue covers (so.later _) same fresh (present_later _ present)
    | send covers so more each => exact .send covers (so.later _) more each
    | finished covers so more each => exact .finished covers (so.later _) more each
  | reset => exact absurd rfl alone
  | takeKey here found fresh =>
    rw [here] at stands
    cases stands with
    | batch covers so same => exact .batch covers (so.take fresh (held ▸ found) _) same
  | next here found fresh =>
    rw [here] at stands
    cases stands with
    | iterate covers so same =>
      have present := Option.isSome_of_eq_some (held ▸ found)
      exact .getValue covers (so.later _) same fresh (present_later _ present)
  | value here found =>
    rw [here] at stands
    cases stands with
    | getValue covers so same fresh present =>
      exact .iterate covers (so.take fresh (held ▸ found) _) same
  | failure here why =>
    rw [here] at stands
    cases stands with
    | getValue covers so same fresh present =>
      rcases why with gone | rfl
      · rw [held] at gone
        simp [gone] at present
      · exact absurd rfl fine
  | @send done todo entry here behind now =>
    rw [here] at stands
    cases stands with
    | @send _ _ events covers so more each =>
      -- The entry moves from those that are to do to those that are done.
      have order : done ++ entry :: todo = (done ++ [entry]) ++ todo := by simp
      rw [order] at covers so
      let value : MapValue := { info := entry.2, behind := behind }
      have sent : s.sent ++ [value.event now] = earlier ++ (events ++ [value.event now]) := by
        rw [more, List.append_assoc]
      exact .send covers (so.later _) sent <|
        List.rel_append each (.cons ⟨behind, now, rfl⟩ .nil)
  | fallback here =>
    rw [here] at stands
    cases stands with
    | batch covers so same =>
      refine .iterate ?_ (so.later _) same
      rw [held]
      exact covers_keys never
  | @walked due read here passed =>
    -- All that was due is read, and nothing is sent yet.
    have start : Covers args before due ∧ ReadIn args before past read ∧ s.sent = earlier := by
      rcases here with here | here
      · rw [here] at stands
        cases stands with
        | batch covers so same => exact ⟨covers, so, same⟩
      · rw [here] at stands
        cases stands with
        | iterate covers so same => exact ⟨covers, so, same⟩
    obtain ⟨covers, so, same⟩ := start
    have all : Covers args before (read.map (·.1)) :=
      fun hit member accepted => passed (covers hit member accepted)
    exact .send all (so.later _) (same.trans (List.append_nil _).symm) .nil
  | finished here =>
    rw [here] at stands
    cases stands with
    | send covers so more each =>
      rw [List.append_nil] at covers so
      exact .finished covers (so.later _) more each

end Round

/-- The steps of one round whose reads succeed leave what is read and sent as it should be. -/
theorem stands_run {args : UserArgs} {before during : List CacheStatAction}
    {s₀ s₁ : CacheStatTracer} (ran₀ : run step (new args) before = some s₀)
    (ran₁ : run step s₀ (.reset :: during) = some s₁) (alone : .reset ∉ during)
    (fine : .getValue true ∉ during) (never : NeverFull args (hitsOf (before ++ during))) :
    Stands args before during s₀.sent s₁.sent s₁.phase := by
  obtain ⟨told, held⟩ := map_run ran₀
  -- The ticker finds the session idle, and what is due are the keys that are listed now.
  obtain ⟨begun, started, ran⟩ := Option.bind_eq_some_iff.mp ran₁
  have first : begun = { s₀ with phase := .batch s₀.cachestatMap.keys [] } := by
    cases step_cases started with
    | reset idle => rfl
  -- The map is full at no time of the round so far, so the invariant may rely on that.
  have initial : NeverFull args (hitsOf (before ++ [])) →
      (begun.args = args ∧ begun.cachestatMap = entriesAfter args (hitsOf (before ++ []))) ∧
        Stands args before [] s₀.sent begun.sent begun.phase := by
    intro start
    rw [first]
    refine ⟨⟨told, by rw [List.append_nil]; exact held⟩, ?_⟩
    refine .batch ?_ ⟨List.nodup_nil, fun _ member => absurd member List.not_mem_nil⟩ rfl
    have covers := covers_keys start
    rw [List.append_nil, ← held] at covers
    exact covers
  let allows : CacheStatTracer → CacheStatAction → Prop :=
    fun _ action => action ≠ .reset ∧ action ≠ .getValue true
  have carried := @run_history_allowed _ _ step begun s₁ allows
    (fun past state => NeverFull args (hitsOf (before ++ past)) →
      (state.args = args ∧ state.cachestatMap = entriesAfter args (hitsOf (before ++ past))) ∧
        Stands args before past s₀.sent state.sent state.phase)
    initial
    (by
      intro past state action next holds allowed taken later
      have order : before ++ past ++ [action] = before ++ (past ++ [action]) := by simp
      have inside : hitsOf (before ++ past) <+: hitsOf (before ++ (past ++ [action])) := by
        rw [← order, hitsOf_append (before ++ past)]
        exact List.prefix_append ..
      obtain ⟨map, stands⟩ := holds (later.before inside)
      have stepped := step_cases taken
      exact ⟨order ▸ stepped_map stepped map,
        stands_step map.2 (later.before inside) stands stepped allowed.1 allowed.2⟩)
    _ (allowed_everywhere fun action member _ =>
      ⟨fun same => alone (same ▸ member), fun same => fine (same ▸ member)⟩) ran
  exact (carried never).2

/--
Whatever the hooks do while a round reads their map, the round sends one event for each key, and
for every key that had a hit before. The row of an event tells of all accepted hits of its key since
the hooks were attached, up to a time within the round: rows of later rounds count them again.

The totals are cut to 32 bits, and are right in these even where the sign that the kernel adds to a
number makes its own totals wrong. The number of hits is lost.
-/
theorem round_totals (cfg : CACHESTAT) (valid : cfg.Valid) (args : UserArgs)
    (told : kernelArgs cfg = some args) (before during : List CacheStatAction)
    (s₀ s₁ : CacheStatTracer) (ran₀ : run step (new args) before = some s₀)
    (ran₁ : run step s₀ (.reset :: during) = some s₁) (ended : s₁.phase = .idle)
    (alone : .reset ∉ during) (fine : .getValue true ∉ during)
    (never : NeverFull args (hitsOf (before ++ during))) :
    (∀ hit : Hit, hit.accepted args ↔ cfg.Selects hit) ∧
      ∃ keys events, s₁.sent = s₀.sent ++ events ∧ keys.Nodup ∧
        (∀ hit ∈ hitsOf before, cfg.Selects hit → hit.ctx.key ∈ keys) ∧
        List.Forall₂ (fun key event => ∃ passed, passed <+: during ∧
          Reports key (acceptedUnder args key (hitsOf (before ++ passed))) event) keys events := by
  rw [kernelArgs_eq, Option.some.injEq] at told
  subst told
  -- The round is over, so all that it read was sent.
  have stands := stands_run ran₀ ran₁ alone fine never
  rw [ended] at stands
  cases stands with
  | @finished done events covers so more each =>
    refine ⟨accepted_iff valid, done.map (·.1), events, more, so.once, ?_, ?_⟩
    · exact fun hit member selected => covers hit member ((accepted_iff valid hit).mpr selected)
    · rw [List.forall₂_map_left_iff]
      -- Each entry is as it was at some time, and the map was not full before that.
      have told : ∀ entry ∈ done, ∀ event, Sends entry event → ∃ passed, passed <+: during ∧
          Reports entry.1 (acceptedUnder cfg.meant entry.1 (hitsOf (before ++ passed))) event := by
        rintro entry member _ ⟨behind, now, rfl⟩
        obtain ⟨passed, inside, found⟩ := so.found entry member
        have within : hitsOf (before ++ passed) <+: hitsOf (before ++ during) := by
          obtain ⟨rest, rfl⟩ := inside
          rw [← List.append_assoc, hitsOf_append (before ++ passed)]
          exact List.prefix_append ..
        exact ⟨passed, inside, entry_reports (never.before within) found behind now⟩
      exact ((List.forall₂_and_left _ _).mpr ⟨fun _ member => member, each⟩).imp
        fun entry event ⟨member, sends⟩ => told entry member event sends

/-- A configuration that asks for all hits. -/
def allHits : CACHESTAT where
  pid := -1
  cacheType := 0
  cpu := -1

/-- A round that reads one entry by the batch call, with a hit after it. -/
def batchRound : List CacheStatAction :=
  [.takeKey (bytesOf 0).key, .hit (.read (bytesOf 5)), .proceed, .send [] 0, .proceed]

/-- A round sends one event for the key of two hits, of which it saw the first one. -/
theorem round_totals_two_hits :
    ∃ s₀ s₁, run step (new allHits.meant) [.hit (.write (bytesOf 7))] = some s₀ ∧
      run step s₀ (.reset :: batchRound) = some s₁ ∧
      ∃ keys events, s₁.sent = s₀.sent ++ events ∧ keys.Nodup ∧
        List.Forall₂ (fun key event => ∃ passed, passed <+: batchRound ∧
          Reports key (acceptedUnder allHits.meant key
            (hitsOf ([.hit (.write (bytesOf 7))] ++ passed))) event) keys events := by
  -- Two hits are too few to fill the map.
  have valid : allHits.Valid := ⟨by decide, by decide, by decide⟩
  obtain ⟨_, keys, events, more, once, _, each⟩ := round_totals allHits valid _
    (kernelArgs_eq allHits) [.hit (.write (bytesOf 7))] batchRound _ _ rfl rfl rfl
    (by simp [batchRound]) (by simp [batchRound]) (neverFull_of_length_le (by decide))
  exact ⟨_, _, rfl, rfl, keys, events, more, once, each⟩

end CacheStatTracer

end Spycat.Cachestat
