import Spycat.Lib.Run
import Spycat.Proofs.Ebpf.OncpuSteps

/-! Between rounds samples are sent or in the map, as long as no count changes behind a round. -/

namespace Spycat.Oncpu

open Lib Bpf

/-- What entries count together. -/
def entriesTotal (entries : List Entry) : Nat := (entries.map fun entry => entry.2.toNat).sum

/-- What gathered entries count together. -/
def sfsTotal (sfs : List Sf) : Nat := (sfs.map fun it => it.count.toNat).sum

/-- What the counts map counts together. -/
def inMap (mapCounts : Assoc ProfileKey UInt32) : Nat :=
  Assoc.total (fun _ value => value.toNat) mapCounts

/-- What events count together. -/
def sentTotal (sent : List SpyEvent) : Nat :=
  (sent.map fun e => (e.getUintUserAttribute "count").toNat).sum

/-- How many samples a sequence of steps takes. -/
def sampled (args : ProfileBssArgs) (actions : List OncpuAction) : Nat :=
  actions.countP fun action =>
    match action with
    | .sample ctx => args.accepts ctx
    | _ => false

namespace Phase

/-- The entries that were read and are yet to be deleted; the batch call leaves none. -/
def pending : Phase → List Entry
  | .iterate read | .getValue read _ => read
  | .userStack r _ | .kernelStack r _ _ _ | .send r _ => if r.batch then [] else r.entries
  | .clearCounts _ todo => todo
  | _ => []

/-- The keys that were read or are about to be, and are yet to be deleted. -/
def keys : Phase → List ProfileKey
  | .getValue read key => read.map (·.1) ++ [key]
  | phase => phase.pending.map (·.1)

/-- What was read in this round and is yet to be sent. -/
def unsent : Phase → Nat
  | .batch taken => entriesTotal taken
  | .iterate read | .getValue read _ => entriesTotal read
  | .userStack r todo => sfsTotal r.sfs + entriesTotal todo
  | .kernelStack r entry _ todo => sfsTotal r.sfs + (entry.2.toNat + entriesTotal todo)
  | .send _ todo => sfsTotal todo
  | _ => 0

end Phase

/--
A step leaves the counts of a round as they were read.

A sample finds its key not among the entries that were read and are yet to be deleted, finds room
for a new key, and finds a count that does not wrap; and no entry fails to be deleted.
-/
def Settled (machine : Machine) (s : OncpuSession) : OncpuAction → Prop
  | .sample ctx =>
    s.maps.args.accepts ctx →
      let key := (s.maps.profileKey machine.stackHash ctx).1
      key ∉ s.phase.pending.map (·.1) ∧
      (s.maps.mapCounts.lookup key = none → s.maps.mapCounts.size < profileMapsSize) ∧
      s.maps.mapCounts.lookup key ≠ some (UInt32.ofNat (2 ^ 32 - 1))
  | .deleteKey failed => failed = false
  | _ => True

/-- What was sampled is sent, in the map, or yet to be sent; what is yet to be deleted is twice. -/
structure Accounts (args : ProfileBssArgs) (past : List OncpuAction) (s : OncpuSession) :
    Prop where
  filters : s.maps.args = args
  distinct : s.phase.keys.Nodup
  stored : ∀ entry ∈ s.phase.pending, s.maps.mapCounts.lookup entry.1 = some entry.2
  balanced : sentTotal s.sent + inMap s.maps.mapCounts + s.phase.unsent =
    sampled args past + entriesTotal s.phase.pending

section Samples

variable {maps : ProfileMaps} {key : ProfileKey}

/-- Counting a sample adds one to the map, where there is room and nothing wraps. -/
theorem inMap_countSample (maps : ProfileMaps)
    (room : maps.mapCounts.lookup key = none → maps.mapCounts.size < profileMapsSize)
    (small : maps.mapCounts.lookup key ≠ some (UInt32.ofNat (2 ^ 32 - 1))) :
    inMap (maps.countSample key).mapCounts = inMap maps.mapCounts + 1 := by
  -- The key is either new or has its count raised.
  cases found : maps.mapCounts.lookup key with
  | none =>
    have stored := tryUpdateElem_new 1 .noExist found (room found)
    simp only [ProfileMaps.countSample, found, stored, inMap]
    rw [Assoc.total_insert_new _ _ found]
    exact Nat.add_comm _ _
  | some val =>
    have exchanged := Assoc.total_insert (fun _ (value : UInt32) => value.toNat) (val + 1) found
    have raised : (val + 1).toNat = val.toNat + 1 := by
      have below : val.toNat ≠ 2 ^ 32 - 1 := by
        intro full
        refine small (found.trans (congrArg some ?_))
        rw [← full, UInt32.ofNat_toNat]
      have bound := val.toNat_lt
      rw [UInt32.toNat_add]
      simp only [UInt32.toNat_one]
      omega
    simp only [ProfileMaps.countSample, found, inMap]
    omega

/-- Counting a sample leaves the other keys alone. -/
theorem lookup_countSample {other : ProfileKey} (apart : other ≠ key) :
    (maps.countSample key).mapCounts.lookup other = maps.mapCounts.lookup other := by
  -- Only the entry of the sample's own key is written.
  cases found : maps.mapCounts.lookup key with
  | none =>
    simp only [ProfileMaps.countSample, found, tryUpdateElem, updateElem]
    split
    · exact AList.lookup_insert_ne apart
    · rfl
  | some val =>
    simp only [ProfileMaps.countSample, found]
    exact AList.lookup_insert_ne apart

/-- The filters stay. -/
@[simp] theorem args_countSample : (maps.countSample key).args = maps.args := by
  -- Both ways of counting write the counts map alone.
  unfold ProfileMaps.countSample
  split <;> rfl

end Samples

/-- The event for an entry counts what the entry counts. -/
theorem count_eventOf {resolve : BccResolve} {s : OncpuSession} {it : Sf} {now : UInt64}
    {event : SpyEvent} (made : s.eventOf resolve it now = some event) :
    (event.getUintUserAttribute "count").toNat = it.count.toNat := by
  -- Whatever the line is, the count is the second attribute.
  obtain ⟨line, _, made⟩ := Option.bind_eq_some_iff.mp made
  obtain ⟨line, _, rfl⟩ := Option.map_eq_some_iff.mp made
  have found : ∀ event : SpyEvent, event.userAttributes = [.ofByteBuf "stack" line,
      .ofUint32 "count" it.count, .ofUint32 "pid" it.pid, .ofByteBuf "comm" it.comm,
      .ofUint32 "sampleRate" s.sampleRate] →
      event.getUintUserAttribute "count" = it.count.toUInt64 := by
    intro event attributes
    simp [SpyEvent.getUintUserAttribute, SpyEvent.getUserAttribute, attributes]
  rw [found _ rfl, UInt32.toNat_toUInt64]

section Steps

variable {machine : Machine} {args : ProfileBssArgs} {past : List OncpuAction}
  {s s' : OncpuSession}

/-- A step that is no sample leaves the number of samples. -/
theorem sampled_append (action : OncpuAction) :
    sampled args (past ++ [action]) = sampled args past + sampled args [action] := by
  -- Samples are counted one by one.
  simp only [sampled, List.countP_append]

/-- A step of the session takes no sample. -/
theorem sampled_session {action : OncpuAction} (session : ∀ ctx, action ≠ .sample ctx) :
    sampled args (past ++ [action]) = sampled args past := by
  -- Only samples are counted.
  rw [sampled_append]
  cases action with
  | sample ctx => exact absurd rfl (session ctx)
  | _ => rfl

/-- A sample that changes no count behind the round is in the map. -/
theorem Accounts.sample (accounts : Accounts args past s) {ctx : PerfEventData}
    (settled : Settled machine s (.sample ctx)) :
    Accounts args (past ++ [.sample ctx])
      { s with maps := s.maps.doPerfEvent machine.stackHash ctx } := by
  have filters := accounts.filters
  by_cases accepted : s.maps.args.accepts ctx
  · obtain ⟨apart, room, small⟩ := settled accepted
    -- Recording the stacks does not touch the counts.
    have added := inMap_countSample
      { s.maps with mapStacks := (s.maps.profileKey machine.stackHash ctx).2 } room small
    have counted : sampled args [.sample ctx] = 1 := by
      simp [sampled, ← filters, accepted]
    have taken : s.maps.doPerfEvent machine.stackHash ctx = ProfileMaps.countSample
        { s.maps with mapStacks := (s.maps.profileKey machine.stackHash ctx).2 }
        (s.maps.profileKey machine.stackHash ctx).1 := by
      simp [ProfileMaps.doPerfEvent, accepted]
    refine ⟨by simpa [taken] using filters, accounts.distinct, fun entry member => ?_, ?_⟩
    · have other : entry.1 ≠ (s.maps.profileKey machine.stackHash ctx).1 := by
        intro same
        exact apart (same ▸ List.mem_map_of_mem member)
      simp only [taken, lookup_countSample other]
      exact accounts.stored entry member
    · have balance := accounts.balanced
      simp only [taken, added, sampled_append, counted]
      omega
  · -- A sample that the filters leave out changes nothing.
    have same : s.maps.doPerfEvent machine.stackHash ctx = s.maps := by
      simp [ProfileMaps.doPerfEvent, accepted]
    have counted : sampled args [.sample ctx] = 0 := by
      simp [sampled, ← filters, accepted]
    refine ⟨by simpa [same] using filters, accounts.distinct, ?_, ?_⟩
    · simpa [same] using accounts.stored
    · simpa [same, sampled_append, counted] using accounts.balanced

/-- Going on keeps what is pending and what is unsent. -/
theorem proceed_keeps {phase : Phase} (distinct : s.phase.keys.Nodup)
    (ended : s.proceed = some phase) :
    phase.keys.Nodup ∧ phase.pending = s.phase.pending ∧ phase.unsent = s.phase.unsent := by
  -- Each loop ends with nothing left to do, and hands over what it has gathered.
  cases ends_of_proceed ended with
  | nothingTaken phase =>
    rw [phase]
    exact ⟨by simp [Phase.keys, Phase.pending], rfl, rfl⟩
  | taken phase some_ =>
    rw [phase]
    exact ⟨by simp [Phase.keys, Phase.pending], rfl, by simp [Phase.unsent, sfsTotal]⟩
  | iterated phase =>
    rw [phase] at distinct ⊢
    refine ⟨?_, rfl, by simp [Phase.unsent, sfsTotal]⟩
    simpa [Phase.keys, Phase.pending] using distinct
  | gathered phase =>
    rw [phase] at distinct ⊢
    exact ⟨distinct, rfl, by simp [Phase.unsent, entriesTotal]⟩
  | sent phase =>
    rw [phase] at distinct ⊢
    exact ⟨distinct, rfl, by simp [Phase.unsent, OncpuSession.startClearing, sfsTotal]⟩
  | cleared phase =>
    rw [phase]
    unfold OncpuSession.startStacks
    split <;> exact ⟨by simp [Phase.keys, Phase.pending], rfl, rfl⟩
  | listed phase =>
    rw [phase]
    exact ⟨by simp [Phase.keys, Phase.pending], rfl, rfl⟩
  | finished phase =>
    rw [phase]
    exact ⟨by simp [Phase.keys, Phase.pending], rfl, rfl⟩

@[simp] theorem entriesTotal_nil : entriesTotal [] = 0 := rfl

@[simp] theorem entriesTotal_append (entries : List Entry) (entry : Entry) :
    entriesTotal (entries ++ [entry]) = entriesTotal entries + entry.2.toNat := by
  -- The total goes over all entries.
  simp [entriesTotal]

@[simp] theorem entriesTotal_cons (entry : Entry) (entries : List Entry) :
    entriesTotal (entry :: entries) = entry.2.toNat + entriesTotal entries := by
  -- The total goes over all entries.
  simp [entriesTotal]

/-- After a step of the session with no entry left to delete, only the balance is to be shown. -/
theorem Accounts.of_none_pending {action : OncpuAction} (session : ∀ ctx, action ≠ .sample ctx)
    (filters : s'.maps.args = args) (unread : s'.phase.keys = []) (none_ : s'.phase.pending = [])
    (balance : sentTotal s'.sent + inMap s'.maps.mapCounts + s'.phase.unsent = sampled args past) :
    Accounts args (past ++ [action]) s' where
  -- With nothing to be deleted, no count is in two places.
  filters := filters
  distinct := by simp [unread]
  stored := by simp [none_]
  balanced := by
    rw [sampled_session session, none_, balance]
    rfl

/-- A step that changes no count behind the round keeps the accounts. -/
theorem Accounts.step (accounts : Accounts args past s) {action : OncpuAction}
    (settled : Settled machine s action) (stepped : s.step machine action = some s') :
    Accounts args (past ++ [action]) s' := by
  obtain ⟨filters, distinct, stored, balance⟩ := accounts
  cases moves_of_step stepped with
  | sample ctx => exact Accounts.sample ⟨filters, distinct, stored, balance⟩ settled
  | reset phase =>
    refine .of_none_pending (by simp) filters rfl rfl ?_
    simpa [phase, Phase.unsent, Phase.pending, entriesTotal] using balance
  | @takeKey taken key value phase found =>
    -- The value moves from the map to what is unsent.
    refine .of_none_pending (by simp) filters rfl rfl ?_
    have removed := Assoc.total_erase (fun _ (value : UInt32) => value.toNat) found
    simp only [phase, Phase.unsent, Phase.pending, entriesTotal_append, entriesTotal_nil, inMap]
      at balance ⊢
    omega
  | @next read key phase found fresh =>
    simp only [phase, Phase.keys, Phase.pending] at distinct stored
    refine ⟨filters, ?_, stored, ?_⟩
    · simp only [Phase.keys]
      exact List.nodup_append.mpr ⟨distinct, by simp, fun a inside b same => by
        obtain rfl : b = key := by simpa using same
        exact fun alike => fresh (alike ▸ inside)⟩
    · rw [sampled_session (by simp)]
      simpa [phase, Phase.unsent, Phase.pending] using balance
  | @getValue read key value phase found =>
    -- The value is read, and as its key is yet to be deleted it counts on both sides.
    simp only [phase, Phase.keys, Phase.pending] at distinct stored
    refine ⟨filters, by simpa [Phase.keys, Phase.pending] using distinct, ?_, ?_⟩
    · intro entry member
      rcases List.mem_append.mp member with earlier | last
      · exact stored entry earlier
      · obtain rfl : entry = (key, value) := by simpa using last
        exact found
    · rw [sampled_session (by simp)]
      simp only [phase, Phase.unsent, Phase.pending, entriesTotal_append] at balance ⊢
      omega
  | @getValueError read key failed phase error =>
    -- Nothing of this round was sent, and nothing will be deleted.
    refine .of_none_pending (by simp) filters rfl rfl ?_
    simp only [phase, Phase.unsent, Phase.pending] at balance ⊢
    omega
  | @userStack r entry todo phase =>
    refine ⟨filters, by simpa [phase, Phase.keys, Phase.pending] using distinct,
      by simpa [phase, Phase.pending] using stored, ?_⟩
    rw [sampled_session (by simp)]
    simpa [phase, Phase.unsent, Phase.pending] using balance
  | @kernelStack r entry uStack todo phase =>
    refine ⟨filters, by simpa [phase, Phase.keys, Phase.pending] using distinct,
      by simpa [phase, Phase.pending] using stored, ?_⟩
    rw [sampled_session (by simp)]
    simp only [phase, Phase.unsent, Phase.pending, sfsTotal, List.map_append, List.sum_append,
      List.map_cons, List.map_nil, List.sum_cons, List.sum_nil] at balance ⊢
    omega
  | @send r it todo now event phase made =>
    -- What the event counts is sent and no longer unsent.
    refine ⟨filters, by simpa [phase, Phase.keys, Phase.pending] using distinct,
      by simpa [phase, Phase.pending] using stored, ?_⟩
    have counted := count_eventOf made
    rw [sampled_session (by simp)]
    simp only [phase, Phase.unsent, Phase.pending, sfsTotal, sentTotal, List.map_append,
      List.sum_append, List.map_cons, List.map_nil, List.sum_cons, List.sum_nil] at balance ⊢
    omega
  | @deleteKey r entry todo phase found =>
    -- The map still holds what was read of the key, so the deletion takes just that away.
    simp only [phase, Phase.keys, Phase.pending, List.map_cons, List.nodup_cons] at distinct
    simp only [phase, Phase.pending] at stored
    have held := stored entry (by simp)
    have removed := Assoc.total_erase (fun _ (value : UInt32) => value.toNat) held
    refine ⟨filters, distinct.2, fun other member => ?_, ?_⟩
    · have apart : other.1 ≠ entry.1 := fun same =>
        distinct.1 (same ▸ List.mem_map_of_mem member)
      exact (AList.lookup_erase_ne apart).trans (stored other (List.mem_cons_of_mem _ member))
    · rw [sampled_session (by simp)]
      simp only [phase, Phase.unsent, Phase.pending, entriesTotal_cons, inMap] at balance ⊢
      omega
  | @deleteKeyError r entry todo failed phase error =>
    -- A key that was read is there, so only a failure could keep it from being deleted.
    simp only [phase, Phase.pending] at stored
    have held := stored entry (by simp)
    rcases error with gone | refused
    · rw [held] at gone
      cases gone
    · exact absurd (refused.symm.trans settled) (by simp)
  | @nextStack listed id phase fresh found =>
    -- Listing stacks touches no count.
    refine .of_none_pending (by simp) filters rfl rfl ?_
    simpa [phase, Phase.unsent, Phase.pending] using balance
  | @deleteStack todo id failed phase known =>
    -- Stacks have a map of their own.
    refine .of_none_pending (by simp) filters rfl rfl ?_
    simpa [phase, Phase.unsent, Phase.pending] using balance
  | proceed ended =>
    obtain ⟨distinct', pending, unsent⟩ := proceed_keeps distinct ended
    refine ⟨filters, distinct', by simpa [pending] using stored, ?_⟩
    rw [sampled_session (by simp)]
    simpa [pending, unsent] using balance

end Steps

/-- A session before its first round, with nothing sampled yet. -/
def OncpuSession.start (args : ProfileBssArgs) (sampleRate : UInt32) : OncpuSession where
  maps := { args := args, mapCounts := ∅, mapStacks := ∅ }
  roundNumber := 10
  sampleRate := sampleRate
  phase := .idle
  sent := []

/-- Nothing is sampled, sent or in the map at the start. -/
theorem accounts_start (args : ProfileBssArgs) (sampleRate : UInt32) :
    Accounts args [] (OncpuSession.start args sampleRate) where
  filters := rfl
  distinct := by simp [OncpuSession.start, Phase.keys, Phase.pending]
  stored := by simp [OncpuSession.start, Phase.pending]
  balanced := by
  -- Both maps are empty, and no event was sent.
    simp [OncpuSession.start, Phase.unsent, Phase.pending, sentTotal, inMap, sampled, entriesTotal]

/--
Between rounds every sample is in an event that was sent or still in the map.

The steps of the kernel and of the session come in any order, as long as each leaves the counts of
a round as they were read.
-/
theorem OncpuSession.resets_conserve (machine : Machine) (args : ProfileBssArgs)
    (sampleRate : UInt32) (actions : List OncpuAction)
    (settled : Allowed (OncpuSession.step machine) (Settled machine)
      (OncpuSession.start args sampleRate) actions) (s : OncpuSession)
    (ran : run (OncpuSession.step machine) (OncpuSession.start args sampleRate) actions = some s)
    (between : s.phase = .idle) :
    sentTotal s.sent + inMap s.maps.mapCounts = sampled args actions := by
  have accounts : Accounts args actions s := run_history_allowed (Accounts args)
    (accounts_start args sampleRate)
    (fun past state action next carried settled stepped => carried.step settled stepped)
    settled ran
  -- Between rounds nothing is unsent and nothing is yet to be deleted.
  simpa [between, Phase.unsent, Phase.pending, entriesTotal] using accounts.balanced

/-- A machine that files every stack under one hash and knows no symbols. -/
def bareMachine : Machine where
  stackHash := fun _ => 0
  resolve := fun _ _ _ => { name := [], module := [], offset := 0 }

/-- The filters that the maps start with. -/
def unfiltered : ProfileBssArgs := { tgidFilter := 0, spaceFilter := 0 }

/-- A sample of process five, which has no stacks. -/
def plainSample : PerfEventData where
  pidTgid := 0x500000005
  comm := [97, 0]
  kernFrames := none
  userFrames := none

/-- What the sample is counted by. -/
def plainKey : ProfileKey := { pid := 5, kernStack := -14, userStack := -14, comm := [97, 0] }

/-- A round that iterates over one entry, up to where its event is sent. -/
def fallbackRead : List OncpuAction :=
  [.reset, .proceed, .next plainKey, .getValue false, .proceed, .getStack, .getStack, .proceed,
    .send 0]

/-- The rest of the round. -/
def fallbackClear : List OncpuAction := [.proceed, .deleteKey false, .proceed, .proceed]

/-- A sample before an iterating round is sent by it. -/
theorem OncpuSession.resets_conserve_fallback :
    ∃ s, run (OncpuSession.step bareMachine) (OncpuSession.start unfiltered 99)
        (.sample plainSample :: (fallbackRead ++ fallbackClear)) = some s ∧
      sentTotal s.sent + inMap s.maps.mapCounts =
        sampled unfiltered (.sample plainSample :: (fallbackRead ++ fallbackClear)) := by
  have settled : Allowed (OncpuSession.step bareMachine) (Settled bareMachine)
      (OncpuSession.start unfiltered 99)
      (.sample plainSample :: (fallbackRead ++ fallbackClear)) := by
    constructor
    · -- The maps are empty when the sample comes.
      exact fun _ => ⟨by simp [OncpuSession.start, Phase.pending], fun _ => by decide,
        by simp [OncpuSession.start]⟩
    · -- No other step is a sample or fails.
      refine fun next _ => allowed_everywhere fun action member state => ?_
      cases action with
      | sample ctx => simp [fallbackRead, fallbackClear] at member
      | deleteKey failed =>
        obtain rfl : failed = false := by simpa [fallbackRead, fallbackClear] using member
        rfl
      | _ => trivial
  exact ⟨_, rfl, OncpuSession.resets_conserve bareMachine unfiltered 99 _ settled _ rfl rfl⟩

/-- A sample between the reading and the deletion of its key is lost. -/
theorem OncpuSession.fallback_loses_sample :
    ∃ s, run (OncpuSession.step bareMachine) (OncpuSession.start unfiltered 99)
        ([.sample plainSample] ++ fallbackRead ++ [.sample plainSample] ++ fallbackClear) = some s ∧
      s.phase = .idle ∧ sentTotal s.sent + inMap s.maps.mapCounts = 1 ∧
      sampled unfiltered
        ([.sample plainSample] ++ fallbackRead ++ [.sample plainSample] ++ fallbackClear) = 2 :=
  -- The second sample comes between the reading and the deletion of its entry.
  ⟨_, rfl, rfl, by decide +kernel, by decide⟩

end Spycat.Oncpu
