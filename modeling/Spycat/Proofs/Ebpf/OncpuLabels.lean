import Spycat.Detector.CpuDetector
import Spycat.Proofs.Detector.LabelSwitch
import Spycat.Proofs.Ebpf.OncpuCounts
import Spycat.Proofs.Ebpf.OncpuOrigin

/-! Which labels an entry of the on-CPU profiler gets: the detector looks for its task elsewhere. -/

namespace Spycat.Oncpu

open Lib

/-- The frames of a stack in a line, outermost first; none of a stack that could not be read. -/
def framesOf (resolve : BccResolve) (roundNumber : Int) (stack : Bytes) (pid : UInt32)
    (userspace : Bool) : Bytes :=
  ((stackFrames resolve roundNumber pid userspace perfMaxStackDepth stack).map
    fun frames => frames.reverse.flatten).getD []

/-- A walk that does not panic writes the frames behind the line. -/
theorem walkStack_frames {resolve : BccResolve} {roundNumber : Int} {line stack written : Bytes}
    {pid : UInt32} {userspace : Bool}
    (walked : walkStack resolve roundNumber line stack pid userspace = some written) :
    written = line ++ framesOf resolve roundNumber stack pid userspace := by
  simp only [walkStack] at walked
  split at walked
  · -- An empty stack has no first frame.
    rename_i nothing
    obtain rfl := List.eq_nil_of_length_eq_zero nothing
    obtain rfl := Option.some.inj walked
    exact (List.append_nil line).symm
  · obtain ⟨frames, found, rfl⟩ := Option.map_eq_some_iff.mp walked
    simp [framesOf, found]

/-- The line of an entry: its command, the frames of its user's stack, and those of the kernel's. -/
def lineOf (resolve : BccResolve) (roundNumber : Int) (entry : Entry) (uStack kStack : Bytes) :
    Bytes :=
  goString entry.1.comm ++ ";".toUTF8.toList ++
    framesOf resolve roundNumber uStack entry.1.pid true ++
    framesOf resolve roundNumber kStack 0 false

/-- A block identifies an entry, whose line is given. -/
structure Identifies (block : DataBlock) (entry : Entry) (line : Bytes) : Prop where
  pid : HasNumber block.labels Model.pid entry.1.pid.toNat
  comm : HasString block.labels Model.comm (goString entry.1.comm)
  count : HasNumber block.labels Model.count entry.2.toNat
  metric : ∃ value, block.metrics = [newIntMetric Model.onCpuMetricName value] ∧
    value.toInt = entry.2.toNat
  stack : HasString block.labels Model.stack line

/-- The attributes that an entry is sent with. -/
def attributesOf (it : Sf) (line : Bytes) (sampleRate : UInt32) : List KeyValue :=
  [.ofByteBuf "stack" line, .ofUint32 "count" it.count, .ofUint32 "pid" it.pid,
    .ofByteBuf "comm" it.comm, .ofUint32 "sampleRate" sampleRate]

/-- The event of an entry has its attributes, and leaves its task out. -/
theorem eventOf_sent {resolve : BccResolve} {s : OncpuSession} {it : Sf} {now : UInt64}
    {event : SpyEvent} (made : s.eventOf resolve it now = some event) :
    event.task = { pid := 0, tid := 0, comm := [] } ∧
      event.userAttributes = attributesOf it
        (it.comm ++ ";".toUTF8.toList ++ framesOf resolve s.roundNumber it.uStack it.pid true ++
          framesOf resolve s.roundNumber it.kStack 0 false) s.sampleRate := by
  -- The line grows by the frames of one stack after the other.
  obtain ⟨user, walkedUser, made⟩ := Option.bind_eq_some_iff.mp made
  obtain ⟨line, walked, rfl⟩ := Option.map_eq_some_iff.mp made
  have semicolon : ";".toUTF8.toList = [59] := by decide +kernel
  refine ⟨rfl, ?_⟩
  rw [semicolon, ← walkStack_frames walkedUser, ← walkStack_frames walked]
  rfl

/-- What the handler gathers from the attributes of an entry. -/
theorem oncpuScan_attributes {e : SpyEvent} {it : Sf} {line : Bytes} {sampleRate : UInt32}
    (attributes : e.userAttributes = attributesOf it line sampleRate) (known : UInt32) :
    oncpuScan known e =
      { count := it.count.toUInt64
        stack := line
        labels := storedLabels
          [(Model.stack, .string line), (Model.count, .int it.count.toUInt64.toInt64)]
        sampleRate := sampleRate.toUInt64.toUInt32 } := by
  -- Neither the process nor its command is among the keys that the handler looks for.
  simp only [oncpuScan, attributes, attributesOf, List.foldl_cons, List.foldl_nil,
    OncpuScan.attribute, KeyValue.key_ofUint32, KeyValue.key_ofByteBuf,
    KeyValue.getUintValue_ofUint32, KeyValue.value_ofByteBuf, String.reduceEq, if_true, if_false]
  rfl

/-- The block that the detector makes of an entry: the labels of its task are those of no task. -/
theorem oncpuHandler_block {e : SpyEvent} {it : Sf} {line : Bytes} {sampleRate : UInt32}
    (attributes : e.userAttributes = attributesOf it line sampleRate)
    (task : e.task = { pid := 0, tid := 0, comm := [] }) {c c' : CpuDetector} {block : DataBlock}
    (emitted : c.oncpuHandler e = some (c', some block)) :
    block = newDataBlock Model.onCpu
      (storedLabels
        [(Model.stack, .string line), (Model.count, .int it.count.toUInt64.toInt64),
          (Model.pid, .int 0), (Model.tid, .int 0), (Model.comm, .string [])])
      e.timeStamp [newIntMetric Model.onCpuMetricName it.count.toUInt64.toInt64] := by
  -- The labels of the attributes come first, and those of the task behind them.
  simp only [CpuDetector.oncpuHandler, oncpuScan_attributes attributes] at emitted
  split at emitted
  · -- Under another server the stack goes into the trie, and there is no block.
    obtain ⟨_, _, same⟩ := Option.map_eq_some_iff.mp emitted
    simp at same
  · simp only [Option.some.injEq, Prod.mk.injEq] at emitted
    obtain ⟨_, rfl⟩ := emitted
    rw [task, addTask_stored]
    rfl

/-- A block that the detector makes of an entry identifies it only if the entry names no task. -/
theorem identifies_iff {passed : OncpuSession → Prop} {machine : Machine} {event : SpyEvent}
    {entry : Entry} {sending : OncpuSession} {it : Sf}
    (from_ : SentFor passed machine event entry sending it) {c c' : CpuDetector}
    {block : DataBlock} (emitted : c.oncpuHandler event = some (c', some block)) :
    Identifies block entry
        (lineOf machine.resolve sending.roundNumber entry it.uStack it.kStack) ↔
      entry.1.pid = 0 ∧ goString entry.1.comm = [] := by
  -- The process and the command are those of no task, and all else is right.
  obtain ⟨now, made⟩ := from_.made
  obtain ⟨task, attributes⟩ := eventOf_sent made
  have block_eq := oncpuHandler_block attributes task emitted
  rw [from_.gathered.comm, from_.gathered.pid, from_.gathered.count] at block_eq
  subst block_eq
  constructor
  · intro identifies
    have pid : (0 : Int64).toInt = entry.1.pid.toNat := (hasNumber_stored rfl).mp identifies.pid
    have comm := (hasString_stored rfl).mp identifies.comm
    refine ⟨?_, comm.symm⟩
    apply UInt32.toNat.inj
    rw [Int64.toInt_zero] at pid
    exact (Int.ofNat.inj pid).symm
  · rintro ⟨pid, comm⟩
    exact
      { pid := (hasNumber_stored rfl).mpr (by rw [pid]; rfl)
        comm := (hasString_stored rfl).mpr comm.symm
        count := hasNumber_widened rfl
        metric := ⟨_, rfl, toInt_widened _⟩
        stack := (hasString_stored rfl).mpr rfl }

/-- The attributes of an event, other than its labels, do name the entry. -/
theorem SentFor.named {passed : OncpuSession → Prop} {machine : Machine} {event : SpyEvent}
    {entry : Entry} {sending : OncpuSession} {it : Sf}
    (from_ : SentFor passed machine event entry sending it) :
    event.getUintUserAttribute "pid" = entry.1.pid.toUInt64 ∧
      (event.getUserAttribute "comm").map (·.value) = some (goString entry.1.comm) := by
  -- The attributes stand in the order in which they were set.
  obtain ⟨now, made⟩ := from_.made
  obtain ⟨_, attributes⟩ := eventOf_sent made
  rw [← from_.gathered.pid, ← from_.gathered.comm]
  simp [SpyEvent.getUintUserAttribute, SpyEvent.getUserAttribute, attributes, attributesOf]

/-- In every run, every event was sent for an entry that the counts map held. -/
theorem sentFor_of_run (machine : Machine) (args : ProfileBssArgs) (sampleRate : UInt32)
    (actions : List OncpuAction) (s : OncpuSession)
    (ran : run (OncpuSession.step machine) (OncpuSession.start args sampleRate) actions = some s)
    (event : SpyEvent) (sent : event ∈ s.sent) :
    ∃ entry sending it, SentFor
      (Visited (OncpuSession.step machine) (OncpuSession.start args sampleRate) actions)
      machine event entry sending it :=
  -- The invariant of the run says so of every event that was sent.
  (stems_of_run rfl rfl ran).sent event sent

/--
In every run, every event was sent for an entry that the counts map held, with the stacks that it
names; and a block that the detector makes of it identifies the entry exactly where that has process
zero and an empty command.
-/
theorem labels_identify (machine : Machine) (args : ProfileBssArgs) (sampleRate : UInt32)
    (actions : List OncpuAction) (s : OncpuSession)
    (ran : run (OncpuSession.step machine) (OncpuSession.start args sampleRate) actions = some s)
    (event : SpyEvent) (sent : event ∈ s.sent) :
    (∃ entry sending it, SentFor
        (Visited (OncpuSession.step machine) (OncpuSession.start args sampleRate) actions)
        machine event entry sending it) ∧
      ∀ entry sending it, SentFor
          (Visited (OncpuSession.step machine) (OncpuSession.start args sampleRate) actions)
          machine event entry sending it →
        ∀ c c' block, CpuDetector.oncpuHandler c event = some (c', some block) →
          (Identifies block entry
              (lineOf machine.resolve sending.roundNumber entry it.uStack it.kStack) ↔
            entry.1.pid = 0 ∧ goString entry.1.comm = []) :=
  -- Every event was sent for an entry, and identifies it or not.
  ⟨sentFor_of_run machine args sampleRate actions s ran event sent,
    fun _ _ _ from_ _ _ _ emitted => identifies_iff from_ emitted⟩

/-- A detector under the default server, which makes blocks of on-CPU events. -/
def localDetector : CpuDetector := { CpuDetector.new with server := defaultServer }

/-- Under the default server every on-CPU event becomes a block. -/
theorem localDetector_emits (event : SpyEvent) :
    ∃ c block, localDetector.oncpuHandler event = some (c, some block) := by
  -- Under the default server a record is made.
  simp [CpuDetector.oncpuHandler, localDetector]

/-- Filters that let samples of the idle task pass. -/
def withKernel : ProfileBssArgs := { tgidFilter := 0, spaceFilter := 1 }

/-- A sample of process zero, whose command is empty. -/
def namelessSample : PerfEventData where
  pidTgid := 0
  comm := [0]
  kernFrames := none
  userFrames := none

/-- What the sample is counted by. -/
def namelessKey : ProfileKey := { pid := 0, kernStack := -14, userStack := -14, comm := [0] }

/-- A round that iterates over one entry and sends it. -/
def sendsOne (key : ProfileKey) : List OncpuAction :=
  [.reset, .proceed, .next key, .getValue false, .proceed, .getStack, .getStack, .proceed, .send 0]

/-- The processes and commands that the attributes of the events of a session name. -/
def namedBy (s : OncpuSession) : List (UInt64 × Option Bytes) :=
  s.sent.map fun e => (e.getUintUserAttribute "pid", (e.getUserAttribute "comm").map (·.value))

/-- An event that is the only one of its session is sent for an entry with what it names. -/
theorem SentFor.of_named {passed : OncpuSession → Prop} {machine : Machine} {s : OncpuSession}
    {pid : UInt32} {comm : Bytes} (named : namedBy s = [(pid.toUInt64, some comm)])
    {event : SpyEvent} (sent : event ∈ s.sent) {entry : Entry} {sending : OncpuSession} {it : Sf}
    (from_ : SentFor passed machine event entry sending it) :
    entry.1.pid = pid ∧ goString entry.1.comm = comm := by
  -- The event has the number and the name of its entry.
  have member : (event.getUintUserAttribute "pid",
      (event.getUserAttribute "comm").map (·.value)) ∈ namedBy s := List.mem_map_of_mem sent
  rw [named, List.mem_singleton, from_.named.1, from_.named.2, Prod.mk.injEq] at member
  exact ⟨UInt32.toUInt64_inj.mp member.1, Option.some.inj member.2⟩

/-- An entry of process zero without a command is identified. -/
theorem labels_identify_nameless :
    ∃ s event entry sending it, run (OncpuSession.step bareMachine)
        (OncpuSession.start withKernel 99) (.sample namelessSample :: sendsOne namelessKey) =
          some s ∧ event ∈ s.sent ∧
      SentFor (Visited (OncpuSession.step bareMachine) (OncpuSession.start withKernel 99)
        (.sample namelessSample :: sendsOne namelessKey)) bareMachine event entry sending it ∧
      ∃ c block, localDetector.oncpuHandler event = some (c, some block) ∧
        Identifies block entry
          (lineOf bareMachine.resolve sending.roundNumber entry it.uStack it.kStack) := by
  -- The one entry has neither a number nor a name, so nothing is missing.
  obtain ⟨s, ran, named⟩ : ∃ s, run (OncpuSession.step bareMachine)
      (OncpuSession.start withKernel 99) (.sample namelessSample :: sendsOne namelessKey) =
        some s ∧ namedBy s = [((0 : UInt32).toUInt64, some [])] := ⟨_, rfl, by decide +kernel⟩
  obtain ⟨event, only, _⟩ := List.map_eq_singleton_iff.mp named
  have sent : event ∈ s.sent := by simp [only]
  obtain ⟨⟨entry, sending, it, from_⟩, identified⟩ := labels_identify bareMachine withKernel 99
    _ s ran event sent
  obtain ⟨c, block, emitted⟩ := localDetector_emits event
  have nameless := from_.of_named named sent
  exact ⟨s, event, entry, sending, it, ran, sent, from_, c, block, emitted,
    (identified entry sending it from_ localDetector c block emitted).mpr nameless⟩

/-- An entry of process five, whose command is one letter, is not identified. -/
theorem named_process_lost :
    ∃ s event entry sending it, run (OncpuSession.step bareMachine)
        (OncpuSession.start unfiltered 99) (.sample plainSample :: sendsOne plainKey) = some s ∧
      event ∈ s.sent ∧
      SentFor (Visited (OncpuSession.step bareMachine) (OncpuSession.start unfiltered 99)
        (.sample plainSample :: sendsOne plainKey)) bareMachine event entry sending it ∧
      entry.1.pid = 5 ∧ goString entry.1.comm = [97] ∧
      ∃ c block, localDetector.oncpuHandler event = some (c, some block) ∧
        ¬ Identifies block entry
          (lineOf bareMachine.resolve sending.roundNumber entry it.uStack it.kStack) := by
  obtain ⟨s, ran, named⟩ : ∃ s, run (OncpuSession.step bareMachine)
      (OncpuSession.start unfiltered 99) (.sample plainSample :: sendsOne plainKey) = some s ∧
        namedBy s = [((5 : UInt32).toUInt64, some [97])] := ⟨_, rfl, by decide +kernel⟩
  obtain ⟨event, only, _⟩ := List.map_eq_singleton_iff.mp named
  have sent : event ∈ s.sent := by simp [only]
  obtain ⟨entry, sending, it, from_⟩ := sentFor_of_run bareMachine unfiltered 99 _ s ran event sent
  obtain ⟨c, block, emitted⟩ := localDetector_emits event
  obtain ⟨process, command⟩ := from_.of_named named sent
  refine ⟨s, event, entry, sending, it, ran, sent, from_, process, command, c, block, emitted,
    fun identifies => ?_⟩
  -- Only an entry of process zero is identified.
  obtain ⟨zero, _⟩ := (identifies_iff from_ emitted).mp identifies
  rw [process] at zero
  cases zero

end Spycat.Oncpu
