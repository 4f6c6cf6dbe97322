import Spycat.Lib.Words
import Spycat.Proofs.Ebpf.OncpuCounts
import Spycat.Proofs.Ebpf.OncpuOrigin

/-! When the entries of the counts map lose the stacks that their samples were taken with. -/

namespace Spycat.Oncpu

open Lib Bpf

/-- A key has an entry in the counts map, or one that a round has read and not gathered yet. -/
def OncpuSession.Holds (s : OncpuSession) (key : ProfileKey) : Prop :=
  (s.maps.mapCounts.lookup key).isSome ∨ key ∈ s.phase.read.map (·.1)

/-- The entry of a key counts a sample: it has been there ever since the sample was taken. -/
inductive Covers (machine : Machine) (start : OncpuSession) :
    List OncpuAction → ProfileKey → PerfEventData → Prop
  | taken {past : List OncpuAction} {s : OncpuSession} {ctx : PerfEventData}
      (ran : run (OncpuSession.step machine) start past = some s)
      (accepted : s.maps.args.accepts ctx)
      (counted : ((s.maps.doPerfEvent machine.stackHash ctx).mapCounts.lookup
        (s.maps.profileKey machine.stackHash ctx).1).isSome) :
      Covers machine start (past ++ [.sample ctx]) (s.maps.profileKey machine.stackHash ctx).1 ctx
  | kept {past : List OncpuAction} {action : OncpuAction} {s : OncpuSession} {key : ProfileKey}
      {ctx : PerfEventData} (covers : Covers machine start past key ctx)
      (ran : run (OncpuSession.step machine) start (past ++ [action]) = some s)
      (held : s.Holds key) : Covers machine start (past ++ [action]) key ctx

/-- A number that is not negative is the one under which these frames are recorded. -/
def Names (mapStacks : Assoc UInt32 StackBucket) (id : Int64) (frames : Option Bytes) : Prop :=
  0 ≤ id → ¬ id.toInt32 < 0 ∧ ∃ bucket, mapStacks.lookup id.toInt32.toUInt32 = some bucket ∧
    frames = some bucket.frames

/-- Both numbers of a key are still those of the stacks of a sample. -/
structure Intact (mapStacks : Assoc UInt32 StackBucket) (key : ProfileKey) (ctx : PerfEventData) :
    Prop where
  kernel : Names mapStacks key.kernStack ctx.kernFrames
  user : Names mapStacks key.userStack ctx.userFrames

/-- What was gathered for an entry has the stacks of all samples that the entry counted then. -/
def GatheredWhole (machine : Machine) (start : OncpuSession) (actions : List OncpuAction)
    (it : Sf) : Prop :=
  ∃ before key, before <+: actions ∧ it.pid = key.pid ∧ it.comm = goString key.comm ∧
    (∃ ctx, Covers machine start before key ctx) ∧
    ∀ ctx, Covers machine start before key ctx →
      (0 ≤ key.userStack → ctx.userFrames = some it.uStack) ∧
        (0 ≤ key.kernStack → ctx.kernFrames = some it.kStack)

/-- An event was made of something that was gathered so. -/
def SentWhole (machine : Machine) (start : OncpuSession) (actions : List OncpuAction)
    (event : SpyEvent) : Prop :=
  ∃ (it : Sf) (sending : OncpuSession) (now : UInt64),
    sending.eventOf machine.resolve it now = some event ∧ GatheredWhole machine start actions it

/-- The number of a stack, which its hash decides. -/
def stackNumber (stackHash : Bytes → UInt32) (frames : Bytes) : UInt32 :=
  UInt32.ofNat ((stackHash frames).toNat % profileMapsSize)

/-- A stack recorded under the number and with the hash of another one is that one. -/
def Apart (stackHash : Bytes → UInt32) (mapStacks : Assoc UInt32 StackBucket) (frames : Bytes) :
    Prop :=
  ∀ bucket, mapStacks.lookup (stackNumber stackHash frames) = some bucket →
    bucket.hash = stackHash frames → bucket.frames = frames

/--
A step takes no stack away that an entry of the counts map names, and counts no sample with a
stack that has the hash of another recorded one.
-/
def Careful (machine : Machine) (s : OncpuSession) : OncpuAction → Prop
  | .sample ctx =>
    s.maps.args.accepts ctx →
      (∀ frames ∈ ctx.kernFrames, Apart machine.stackHash s.maps.mapStacks frames) ∧
      (∀ frames ∈ ctx.userFrames, Apart machine.stackHash s.maps.mapStacks frames) ∧
      ∀ kern ∈ ctx.kernFrames, ∀ user ∈ ctx.userFrames,
        machine.stackHash kern = machine.stackHash user → kern = user
  | .deleteStack id failed =>
    failed = false → ∀ key, (s.maps.mapCounts.lookup key).isSome → id ∉ OncpuSession.stackIds key
  | _ => True

section Stackid

variable {stackHash : Bytes → UInt32} {mapStacks : Assoc UInt32 StackBucket}

/-- The number of a stack is small, and it is found again in a wider signed one. -/
theorem stackNumber_small (frames : Bytes) :
    ¬ (stackNumber stackHash frames).toUInt64.toInt64.toInt32 < 0 ∧
      (stackNumber stackHash frames).toUInt64.toInt64.toInt32.toUInt32 =
        stackNumber stackHash frames := by
  -- The map has fewer buckets than a signed number of 32 bits can tell apart.
  have bounded : (stackHash frames).toNat % profileMapsSize < profileMapsSize :=
    Nat.mod_lt _ (by decide)
  have small : (stackNumber stackHash frames).toNat < 2 ^ 31 := by
    rw [stackNumber, UInt32.toNat_ofNat']
    simp only [profileMapsSize] at bounded ⊢
    omega
  rw [toInt32_widened]
  exact ⟨not_neg_toInt32 small, UInt32.toUInt32_toInt32 _⟩

/-- Recording a stack leaves those that are there. -/
theorem bpfGetStackid_grows {frames : Option Bytes} {id : UInt32} {bucket : StackBucket}
    (recorded : mapStacks.lookup id = some bucket) :
    (bpfGetStackid stackHash mapStacks frames).2.lookup id = some bucket := by
  cases frames with
  | none => exact recorded
  | some frames =>
    simp only [bpfGetStackid]
    split
    · split <;> exact recorded
    · rename_i free
      -- A new bucket is put where there was none.
      have other : id ≠ UInt32.ofNat ((stackHash frames).toNat % profileMapsSize) := by
        rintro rfl
        rw [recorded] at free
        cases free
      rw [AList.lookup_insert_ne other]
      exact recorded

/-- What is recorded afterwards was there, or is the stack itself. -/
theorem bpfGetStackid_source {frames : Option Bytes} {id : UInt32} {bucket : StackBucket}
    (recorded : (bpfGetStackid stackHash mapStacks frames).2.lookup id = some bucket) :
    mapStacks.lookup id = some bucket ∨
      frames = some bucket.frames ∧ bucket.hash = stackHash bucket.frames := by
  -- A stack that cannot be taken records nothing.
  cases frames with
  | none => exact .inl recorded
  | some frames =>
    simp only [bpfGetStackid] at recorded
    split at recorded
    · split at recorded <;> exact .inl recorded
    · by_cases own : id = UInt32.ofNat ((stackHash frames).toNat % profileMapsSize)
      · rw [own, AList.lookup_insert, Option.some.injEq] at recorded
        subst recorded
        exact .inr ⟨rfl, rfl⟩
      · rw [AList.lookup_insert_ne own] at recorded
        exact .inl recorded

/-- The number that is given for a stack names it, unless another stack has its hash. -/
theorem bpfGetStackid_names {frames : Option Bytes}
    (apart : ∀ stack ∈ frames, Apart stackHash mapStacks stack) :
    Names (bpfGetStackid stackHash mapStacks frames).2
      (bpfGetStackid stackHash mapStacks frames).1 frames := by
  cases frames with
  | none => exact fun positive => absurd positive (show ¬ (0 : Int64) ≤ -14 by decide)
  | some frames =>
    obtain ⟨small, same⟩ := @stackNumber_small stackHash frames
    have own := apart frames rfl
    simp only [stackNumber] at small same
    simp only [Apart, stackNumber] at own
    simp only [bpfGetStackid]
    split
    · rename_i bucket found
      split
      · rename_i hashed
        -- The bucket has the hash of the stack, so it holds the stack.
        exact fun _ => ⟨small, bucket, by rw [same]; exact found, by rw [own bucket found hashed]⟩
      · exact fun positive => absurd positive (show ¬ (0 : Int64) ≤ -17 by decide)
    · exact fun _ => ⟨small, _, by rw [same]; exact AList.lookup_insert _, rfl⟩

end Stackid

section Sample

variable {stackHash : Bytes → UInt32} {maps : ProfileMaps} {ctx : PerfEventData}

/-- The stacks after a sample are those that its key was made with, or none are recorded. -/
theorem mapStacks_doPerfEvent :
    (maps.doPerfEvent stackHash ctx).mapStacks =
      if maps.args.accepts ctx then (maps.profileKey stackHash ctx).2 else maps.mapStacks := by
  -- Counting the sample does not touch the stacks.
  unfold ProfileMaps.doPerfEvent
  split
  · dsimp only [ProfileMaps.countSample]
    split <;> rfl
  · rfl

/-- A sample leaves the stacks that are recorded. -/
theorem doPerfEvent_grows {id : UInt32} {bucket : StackBucket}
    (recorded : maps.mapStacks.lookup id = some bucket) :
    (maps.doPerfEvent stackHash ctx).mapStacks.lookup id = some bucket := by
  -- Both stacks of the sample are recorded one behind the other.
  rw [mapStacks_doPerfEvent]
  split
  · exact bpfGetStackid_grows (bpfGetStackid_grows recorded)
  · exact recorded

/-- Names of stacks that are recorded stay what they are. -/
theorem Names.grows {mapStacks more : Assoc UInt32 StackBucket} {id : Int64}
    {frames : Option Bytes} (names : Names mapStacks id frames)
    (kept : ∀ bucket, mapStacks.lookup id.toInt32.toUInt32 = some bucket →
      more.lookup id.toInt32.toUInt32 = some bucket) : Names more id frames := by
  -- The bucket that is named is kept, with its frames.
  intro positive
  obtain ⟨small, bucket, recorded, same⟩ := names positive
  exact ⟨small, bucket, kept bucket recorded, same⟩

/-- The key of a sample that is taken with care has the numbers of its stacks. -/
theorem profileKey_intact
    (kernel : ∀ frames ∈ ctx.kernFrames, Apart stackHash maps.mapStacks frames)
    (user : ∀ frames ∈ ctx.userFrames, Apart stackHash maps.mapStacks frames)
    (both : ∀ kern ∈ ctx.kernFrames, ∀ user ∈ ctx.userFrames,
      stackHash kern = stackHash user → kern = user) :
    Intact (maps.profileKey stackHash ctx).2 (maps.profileKey stackHash ctx).1 ctx := by
  -- The kernel's stack is recorded first, so the user's finds it there.
  constructor
  · -- The user's stack is recorded behind the kernel's, which stays.
    exact (bpfGetStackid_names kernel).grows fun bucket recorded => bpfGetStackid_grows recorded
  · -- What the user's stack finds was there before, or it is the kernel's stack of the sample.
    refine bpfGetStackid_names fun frames member bucket recorded hashed => ?_
    rcases bpfGetStackid_source recorded with before | ⟨own, made⟩
    · exact user frames member bucket before hashed
    · exact both bucket.frames own frames member (made.symm.trans hashed)

end Sample

/-- A key names the numbers that are not negative, as the session cuts them. -/
theorem mem_stackIds {key : ProfileKey} {id : Int64} (own : id = key.userStack ∨ id = key.kernStack)
    (positive : 0 ≤ id) : id.toInt32.toUInt32 ∈ OncpuSession.stackIds key := by
  -- An entry names its two stacks, each if it is there.
  rcases own with rfl | rfl <;> simp [OncpuSession.stackIds, positive]

section Covers

variable {machine : Machine} {start s s' : OncpuSession} {past : List OncpuAction}
  {action : OncpuAction} {key : ProfileKey} {ctx : PerfEventData}

/-- A sample that an entry counts was counted before, or is the one that has just been taken. -/
theorem covers_append (covers : Covers machine start (past ++ [action]) key ctx) :
    Covers machine start past key ctx ∨ ∃ s, action = .sample ctx ∧
      run (OncpuSession.step machine) start past = some s ∧ s.maps.args.accepts ctx ∧
        key = (s.maps.profileKey machine.stackHash ctx).1 := by
  -- The last action either took the sample, or only had to keep the entry.
  generalize same : past ++ [action] = all at covers
  cases covers with
  | @taken earlier s ctx ran accepted counted =>
    obtain ⟨rfl, last⟩ := List.append_inj' same rfl
    obtain rfl := (List.cons.inj last).1
    exact .inr ⟨s, rfl, ran, accepted, rfl⟩
  | @kept earlier other s key ctx covers ran held =>
    obtain ⟨rfl, _⟩ := List.append_inj' same rfl
    exact .inl covers

/-- An entry that counts a sample is there. -/
theorem Covers.holds (covers : Covers machine start past key ctx)
    (ran : run (OncpuSession.step machine) start past = some s) : s.Holds key := by
  -- A run ends in one state, so the entry was found in this one.
  cases covers with
  | @taken earlier before ctx reached accepted counted =>
    have after : run (OncpuSession.step machine) start (earlier ++ [.sample ctx]) =
        some { before with maps := before.maps.doPerfEvent machine.stackHash ctx } := by
      simp [run_append, reached, OncpuSession.step]
    obtain rfl := Option.some.inj (after.symm.trans ran)
    exact .inl counted
  | kept covers reached held =>
    obtain rfl := Option.some.inj (reached.symm.trans ran)
    exact held

/-- An entry after a step was there before, unless the step counts its first sample. -/
theorem holds_step (stepped : s.step machine action = some s') (held : s'.Holds key) :
    s.Holds key ∨ ∃ ctx, action = .sample ctx ∧ s.maps.args.accepts ctx ∧
      key = (s.maps.profileKey machine.stackHash ctx).1 := by
  -- Only a round that reads an entry takes one in hand, and that one was in the map.
  have passed : (s'.maps.mapCounts = s.maps.mapCounts) →
      (∀ entry ∈ s'.phase.read, entry ∈ s.phase.read ∨ (s.maps.mapCounts.lookup entry.1).isSome) →
      s.Holds key := by
    intro counts read
    rcases held with inMap | inHand
    · exact .inl (counts ▸ inMap)
    · obtain ⟨entry, member, rfl⟩ := List.mem_map.mp inHand
      rcases read entry member with earlier | stored
      · exact .inr (List.mem_map_of_mem earlier)
      · exact .inl stored
  cases moves_of_step stepped with
  | sample ctx =>
    by_cases own : s.maps.args.accepts ctx ∧
        key = (s.maps.profileKey machine.stackHash ctx).1
    · exact .inr ⟨ctx, rfl, own⟩
    · left
      rcases held with inMap | inHand
      · left
        have same : (s.maps.doPerfEvent machine.stackHash ctx).mapCounts.lookup key =
            s.maps.mapCounts.lookup key := by
          unfold ProfileMaps.doPerfEvent
          split
          · rename_i accepted
            exact lookup_countSample fun same => own ⟨accepted, same⟩
          · rfl
        rwa [same] at inMap
      · exact .inr inHand
  | reset phase => exact .inl (passed rfl (by simp [Phase.read]))
  | @takeKey taken other value phase found =>
    left
    rcases held with inMap | inHand
    · exact .inl (Assoc.isSome_of_erase inMap)
    · simp only [Phase.read, List.map_append, List.map_cons, List.map_nil, List.mem_append,
        List.mem_singleton] at inHand
      rcases inHand with earlier | rfl
      · right
        rwa [phase]
      · left
        rw [found]
        rfl
  | next phase found fresh =>
    exact .inl (passed rfl fun entry member => .inl (by rw [phase]; exact member))
  | @getValue read other value phase found =>
    refine .inl (passed rfl fun entry member => ?_)
    rcases List.mem_append.mp member with earlier | last
    · exact .inl (by rw [phase]; exact earlier)
    · obtain rfl := List.mem_singleton.mp last
      exact .inr (by rw [found]; rfl)
  | getValueError phase error => exact .inl (passed rfl (by simp [Phase.read]))
  | userStack phase =>
    exact .inl (passed rfl fun entry member => .inl (by rw [phase]; exact member))
  | kernelStack phase =>
    refine .inl (passed rfl fun entry member => .inl ?_)
    rw [phase]
    exact List.mem_cons_of_mem _ member
  | send phase made => exact .inl (passed rfl (by simp [Phase.read]))
  | @deleteKey r entry todo phase found =>
    left
    rcases held with inMap | inHand
    · exact .inl (Assoc.isSome_of_erase inMap)
    · simp [Phase.read] at inHand
  | deleteKeyError phase error => exact .inl (passed rfl (by simp [Phase.read]))
  | nextStack phase fresh found => exact .inl (passed rfl (by simp [Phase.read]))
  | deleteStack phase known => exact .inl (passed rfl (by simp [Phase.read]))
  | proceed ended =>
    refine .inl (passed rfl fun entry member => ?_)
    cases ends_of_proceed ended with
    | taken stands some_ => exact .inl (by rw [stands]; exact member)
    | iterated stands => exact .inl (by rw [stands]; exact member)
    | cleared stands =>
      simp only [OncpuSession.startStacks] at member
      split at member <;> simp [Phase.read] at member
    | _ => simp [Phase.read, OncpuSession.startClearing] at member

end Covers

/-- What a careful run keeps: entries with their stacks, and what was gathered for them. -/
structure Whole (machine : Machine) (start : OncpuSession) (past : List OncpuAction)
    (s : OncpuSession) : Prop where
  reached : run (OncpuSession.step machine) start past = some s
  covered : ∀ key, s.Holds key → ∃ ctx, Covers machine start past key ctx
  intact : ∀ key ctx, Covers machine start past key ctx → Intact s.maps.mapStacks key ctx
  halfway : ∀ r entry uStack todo, s.phase = .kernelStack r entry uStack todo →
    ∀ ctx, Covers machine start past entry.1 ctx → 0 ≤ entry.1.userStack →
      ctx.userFrames = some uStack
  gathered : ∀ it ∈ s.phase.gathered, GatheredWhole machine start past it
  sent : ∀ event ∈ s.sent, SentWhole machine start past event

section Steps

variable {machine : Machine} {start s s' : OncpuSession} {past : List OncpuAction}
  {action : OncpuAction}

/-- What was gathered stays gathered. -/
theorem GatheredWhole.later {it : Sf} (gathered : GatheredWhole machine start past it)
    (action : OncpuAction) : GatheredWhole machine start (past ++ [action]) it := by
  -- What the entry counted then is a fact about the run up to then.
  obtain ⟨before, key, inside, own⟩ := gathered
  exact ⟨before, key, inside.trans (List.prefix_append ..), own⟩

/-- Every entry that is there counts a sample, also after a step. -/
theorem Whole.covered_step (whole : Whole machine start past s)
    (stepped : s.step machine action = some s') (key : ProfileKey) (held : s'.Holds key) :
    ∃ ctx, Covers machine start (past ++ [action]) key ctx := by
  -- An entry that is new counts the sample of the step itself.
  have after : run (OncpuSession.step machine) start (past ++ [action]) = some s' := by
    simp [run_append, whole.reached, stepped]
  rcases holds_step stepped held with before | ⟨ctx, rfl, accepted, rfl⟩
  · obtain ⟨ctx, covers⟩ := whole.covered key before
    exact ⟨ctx, .kept covers after held⟩
  · by_cases counted : ((s.maps.doPerfEvent machine.stackHash ctx).mapCounts.lookup
        (s.maps.profileKey machine.stackHash ctx).1).isSome
    · exact ⟨ctx, .taken whole.reached accepted counted⟩
    · -- The sample was not counted, so the entry is one that was there before.
      obtain rfl := Option.some.inj stepped
      have inHand := held.resolve_left counted
      obtain ⟨other, covers⟩ := whole.covered _ (.inr inHand)
      exact ⟨other, .kept covers after held⟩

/-- The stacks that a step leaves, if it takes none away. -/
theorem mapStacks_step (stepped : s.step machine action = some s')
    (none_ : ∀ id, action ≠ .deleteStack id false) {id : UInt32} {bucket : StackBucket}
    (recorded : s.maps.mapStacks.lookup id = some bucket) :
    s'.maps.mapStacks.lookup id = some bucket := by
  -- Samples add stacks, and every other step but a deletion leaves the map alone.
  cases moves_of_step stepped with
  | sample ctx => exact doPerfEvent_grows recorded
  | @deleteStack todo id failed phase known =>
    cases failed with
    | true => exact recorded
    | false => exact absurd rfl (none_ id)
  | _ => exact recorded

/-- A careful step keeps the stacks of the samples that entries count. -/
theorem Whole.intact_step (whole : Whole machine start past s) (careful : Careful machine s action)
    (stepped : s.step machine action = some s') {key : ProfileKey} {ctx : PerfEventData}
    (covers : Covers machine start (past ++ [action]) key ctx) :
    Intact s'.maps.mapStacks key ctx := by
  -- Either an earlier step counted the sample, or this step has just taken it.
  rcases covers_append covers with before | ⟨other, rfl, ran, accepted, rfl⟩
  · -- The stacks of samples that were counted before are kept, or deleted under other numbers.
    have intact := whole.intact key ctx before
    have kept : ∀ id, id = key.userStack ∨ id = key.kernStack → 0 ≤ id → ∀ bucket,
        s.maps.mapStacks.lookup id.toInt32.toUInt32 = some bucket →
          s'.maps.mapStacks.lookup id.toInt32.toUInt32 = some bucket := by
      intro id own positive bucket recorded
      by_cases deletes : ∃ number, action = .deleteStack number false
      · obtain ⟨number, rfl⟩ := deletes
        cases moves_of_step stepped with
        | @deleteStack todo _ _ phase known =>
          have stored : (s.maps.mapCounts.lookup key).isSome := by
            have held := before.holds whole.reached
            simpa [OncpuSession.Holds, phase, Phase.read] using held
          have apart : id.toInt32.toUInt32 ≠ number := by
            rintro rfl
            exact careful rfl key stored (mem_stackIds own positive)
          show (s.maps.mapStacks.erase number).lookup _ = _
          rwa [AList.lookup_erase_ne apart]
      · exact mapStacks_step stepped (fun number same => deletes ⟨number, same⟩) recorded
    exact
      ⟨fun positive => intact.kernel.grows (kept _ (.inr rfl) positive) positive,
        fun positive => intact.user.grows (kept _ (.inl rfl) positive) positive⟩
  · -- The sample that has just been taken finds its own stacks.
    obtain rfl := Option.some.inj (whole.reached.symm.trans ran)
    obtain rfl := Option.some.inj stepped
    obtain ⟨kernel, user, both⟩ := careful accepted
    show Intact (s.maps.doPerfEvent machine.stackHash ctx).mapStacks _ ctx
    rw [mapStacks_doPerfEvent, if_pos accepted]
    exact profileKey_intact kernel user both

/-- The stack that is read for a number is the one that it names. -/
theorem Names.getStack {mapStacks : Assoc UInt32 StackBucket} {id : Int64} {frames : Option Bytes}
    (names : Names mapStacks id frames) (positive : 0 ≤ id) :
    frames = some (OncpuSession.getStack mapStacks id.toInt32) := by
  -- The session looks the number up as it was recorded, cut to 32 bits.
  obtain ⟨small, bucket, recorded, rfl⟩ := names positive
  simp [OncpuSession.getStack, small, recorded]

/-- The user's stack that was read first stays the right one while the kernel's is read. -/
theorem Whole.halfway_step (whole : Whole machine start past s) (careful : Careful machine s action)
    (stepped : s.step machine action = some s') {r : Round} {entry : Entry} {uStack : Bytes}
    {todo : List Entry} (stands : s'.phase = .kernelStack r entry uStack todo)
    {ctx : PerfEventData} (covers : Covers machine start (past ++ [action]) entry.1 ctx)
    (positive : 0 ≤ entry.1.userStack) : ctx.userFrames = some uStack := by
  have after := (whole.intact_step careful stepped covers).user
  cases moves_of_step stepped with
  | sample other =>
    -- The entry counts an older sample, and the bucket of its stack is still the same one.
    obtain ⟨older, before⟩ := whole.covered entry.1 (.inr (by rw [stands]; simp [Phase.read]))
    have own := whole.halfway r entry uStack todo stands older before positive
    obtain ⟨_, bucket, recorded, same⟩ := (whole.intact _ _ before).user positive
    obtain ⟨_, later, found, frames⟩ := after positive
    obtain rfl := Option.some.inj ((doPerfEvent_grows recorded).symm.trans found)
    rw [frames, ← same, own]
  | userStack phase =>
    injection stands with _ entries stack _
    subst entries stack
    exact after.getStack positive
  | proceed ended =>
    cases ends_of_proceed ended <;>
      simp only [OncpuSession.startClearing, OncpuSession.startStacks] at stands
    all_goals (try split at stands) <;> cases stands
  | reset | takeKey | next | getValue | getValueError | kernelStack | send | deleteKey
  | deleteKeyError | nextStack | deleteStack => cases stands

/-- What is gathered by a careful step has the stacks of all samples of its entry. -/
theorem Whole.gathered_step (whole : Whole machine start past s)
    (stepped : s.step machine action = some s') (it : Sf) (member : it ∈ s'.phase.gathered) :
    GatheredWhole machine start (past ++ [action]) it := by
  -- Only the end of reading an entry gathers something new.
  have passed : it ∈ s.phase.gathered → GatheredWhole machine start (past ++ [action]) it :=
    fun earlier => (whole.gathered it earlier).later action
  cases moves_of_step stepped with
  | sample ctx => exact passed member
  | userStack phase => exact passed (by rw [phase]; exact member)
  | @kernelStack r entry uStack todo phase =>
    rcases List.mem_append.mp member with earlier | last
    · exact passed (by rw [phase]; exact earlier)
    · obtain rfl := List.mem_singleton.mp last
      refine ⟨past, entry.1, List.prefix_append .., rfl, rfl, ?_, fun ctx covers => ⟨?_, ?_⟩⟩
      · exact whole.covered entry.1 (.inr (by rw [phase]; simp [Phase.read]))
      · exact whole.halfway r entry uStack todo phase ctx covers
      · exact (whole.intact _ _ covers).kernel.getStack
  | send phase made => exact passed (by rw [phase]; exact List.mem_cons_of_mem _ member)
  | proceed ended =>
    cases ends_of_proceed ended with
    | gathered stands => exact passed (by rw [stands]; exact member)
    | cleared stands =>
      simp only [OncpuSession.startStacks] at member
      split at member <;> cases member
    | _ => cases member
  | reset | takeKey | next | getValue | getValueError | deleteKey | deleteKeyError | nextStack
  | deleteStack => cases member

/-- Every event is made of something that was gathered whole. -/
theorem Whole.sent_step (whole : Whole machine start past s)
    (stepped : s.step machine action = some s') (event : SpyEvent) (member : event ∈ s'.sent) :
    SentWhole machine start (past ++ [action]) event := by
  -- Only a step that sends makes an event, out of the first thing gathered.
  have passed : event ∈ s.sent → SentWhole machine start (past ++ [action]) event := by
    intro earlier
    obtain ⟨it, sending, now, made, gathered⟩ := whole.sent event earlier
    exact ⟨it, sending, now, made, gathered.later action⟩
  cases moves_of_step stepped with
  | @send r it todo now own phase made =>
    rcases List.mem_append.mp member with earlier | last
    · exact passed earlier
    · obtain rfl := List.mem_singleton.mp last
      have gathered := whole.gathered it (by rw [phase]; simp [Phase.gathered])
      exact ⟨it, s, now, made, gathered.later _⟩
  | _ => exact passed member

/-- A careful step keeps all of it. -/
theorem Whole.step (whole : Whole machine start past s) (careful : Careful machine s action)
    (stepped : s.step machine action = some s') : Whole machine start (past ++ [action]) s' where
  -- Each part is kept for a reason of its own.
  reached := by simp [run_append, whole.reached, stepped]
  covered := whole.covered_step stepped
  intact := fun _ _ covers => whole.intact_step careful stepped covers
  halfway := fun _ _ _ _ stands _ covers => whole.halfway_step careful stepped stands covers
  gathered := whole.gathered_step stepped
  sent := whole.sent_step stepped

end Steps

/-- A session that has just been started has nothing in its maps. -/
theorem whole_start (machine : Machine) (args : ProfileBssArgs) (sampleRate : UInt32) :
    Whole machine (OncpuSession.start args sampleRate) [] (OncpuSession.start args sampleRate) where
  -- The empty run has counted nothing.
  reached := rfl
  covered := by simp [OncpuSession.Holds, OncpuSession.start, Phase.read]
  intact := by
    intro key ctx covers
    generalize none_ : ([] : List OncpuAction) = past at covers
    cases covers <;> simp at none_
  halfway := by simp [OncpuSession.start]
  gathered := by simp [OncpuSession.start, Phase.gathered]
  sent := by simp [OncpuSession.start]

/--
In every run that takes no stack away from an entry of the counts map, and in which stacks with
one hash are one stack, each entry that is read still has the stacks of all its samples, and
every event is made of such stacks.
-/
theorem OncpuSession.stacks_intact (machine : Machine) (args : ProfileBssArgs)
    (sampleRate : UInt32) (actions : List OncpuAction)
    (careful : Allowed (OncpuSession.step machine) (Careful machine)
      (OncpuSession.start args sampleRate) actions) (s : OncpuSession)
    (ran : run (OncpuSession.step machine) (OncpuSession.start args sampleRate) actions = some s) :
    (∀ key, s.Holds key →
      ∃ ctx, Covers machine (OncpuSession.start args sampleRate) actions key ctx) ∧
    (∀ key ctx, Covers machine (OncpuSession.start args sampleRate) actions key ctx →
      Intact s.maps.mapStacks key ctx) ∧
    ∀ event ∈ s.sent,
      SentWhole machine (OncpuSession.start args sampleRate) actions event := by
  -- The invariant is carried along the run, one careful step after the other.
  have whole : Whole machine (OncpuSession.start args sampleRate) actions s :=
    run_history_allowed (Whole machine (OncpuSession.start args sampleRate))
      (whole_start machine args sampleRate)
      (fun past state action next carried careful stepped => carried.step careful stepped)
      careful ran
  exact ⟨whole.covered, whole.intact, whole.sent⟩

/-- A sample of process five, with a stack of one frame in user space. -/
def userSample : PerfEventData where
  pidTgid := 0x500000005
  comm := [97, 0]
  kernFrames := none
  userFrames := some (1 :: List.replicate 1015 0)

/-- What the sample is counted by. -/
def userKey : ProfileKey := { pid := 5, kernStack := -14, userStack := 0, comm := [97, 0] }

/-- An entry that a round has just read has the stack of its sample. -/
theorem OncpuSession.stacks_intact_read :
    ∃ s, run (OncpuSession.step bareMachine) (OncpuSession.start unfiltered 99)
        [.sample userSample, .reset, .takeKey userKey] = some s ∧
      s.phase = .batch [(userKey, 1)] ∧
      ∀ key ctx, Covers bareMachine (OncpuSession.start unfiltered 99)
          [.sample userSample, .reset, .takeKey userKey] key ctx →
        Intact s.maps.mapStacks key ctx := by
  -- Neither a sample that comes first nor the reading of its entry does harm.
  have careful : Allowed (OncpuSession.step bareMachine) (Careful bareMachine)
      (OncpuSession.start unfiltered 99) [.sample userSample, .reset, .takeKey userKey] := by
    constructor
    · -- Nothing is recorded before the first sample, which has one stack only.
      refine fun _ => ⟨fun frames member => ?_, fun frames _ bucket recorded => ?_, ?_⟩
      · cases member
      · cases recorded
      · intro kern member
        cases member
    · refine fun next _ => allowed_everywhere fun action member state => ?_
      rcases List.mem_cons.mp member with rfl | member
      · trivial
      · obtain rfl := List.mem_singleton.mp member
        trivial
  exact ⟨_, rfl, rfl,
    (OncpuSession.stacks_intact bareMachine unfiltered 99 _ careful _ rfl).2.1⟩

/-- A round that takes one entry out of the map and sends it. -/
def takeRound : List OncpuAction :=
  [.reset, .takeKey userKey, .proceed, .getStack, .getStack, .proceed, .send 0]

/-- A sample comes before a round clears the stacks it knows, and the next round reads it. -/
def clearedRun : List OncpuAction :=
  [.sample userSample] ++ takeRound ++ [.sample userSample] ++
    [.proceed, .proceed, .deleteStack 0 false, .proceed, .reset, .takeKey userKey]

/-- The entry of that sample is read when its stack is gone. -/
theorem OncpuSession.round_clears_stack :
    ∃ s, run (OncpuSession.step bareMachine) (OncpuSession.start unfiltered 99) clearedRun =
        some s ∧
      s.phase.read = [(userKey, 1)] ∧ ∀ ctx, ¬ Intact s.maps.mapStacks userKey ctx := by
  -- The run is evaluated: the entry is in hand, and the bucket of its stack is free.
  have facts : (run (OncpuSession.step bareMachine) (OncpuSession.start unfiltered 99)
      clearedRun).map (fun s => (s.phase.read, s.maps.mapStacks.lookup 0)) =
        some ([(userKey, 1)], none) := by
    decide +kernel
  obtain ⟨s, ran, same⟩ := Option.map_eq_some_iff.mp facts
  obtain ⟨read, cleared⟩ := Prod.mk.inj same
  refine ⟨s, ran, read, fun ctx intact => ?_⟩
  obtain ⟨_, bucket, recorded, _⟩ := intact.user (by decide)
  rw [show userKey.userStack.toInt32.toUInt32 = 0 from rfl, cleared] at recorded
  cases recorded

end Spycat.Oncpu
