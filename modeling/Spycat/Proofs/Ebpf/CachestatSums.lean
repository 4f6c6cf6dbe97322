import Mathlib.Algebra.Ring.Nat
import Mathlib.Data.List.Induction
import Spycat.Ebpf.Cachestat
import Spycat.Lib.Words

/-! What the entries of the page cache tracer add up to, whichever hook made them. -/

namespace Spycat.Cachestat

open Lib Bpf

namespace Hit

/-- What a hit brings to its hook. -/
def ctx : Hit → HookCtx
  | .write ctx => ctx
  | .read ctx => ctx

/-- The settings let a hit pass. -/
def accepted (args : UserArgs) : Hit → Bool
  | .write ctx => args.accepts readCache ctx
  | .read ctx => args.accepts writeCache ctx

/-- How many bytes a hit reads. -/
def bytesRead : Hit → Nat
  | .write _ => 0
  | .read ctx => ctx.count.toNat

/-- How many bytes a hit writes. -/
def bytesWritten : Hit → Nat
  | .write ctx => ctx.count.toNat
  | .read _ => 0

end Hit

/-- The hits of a key that pass the settings. -/
def acceptedUnder (args : UserArgs) (key : CacheKey) (hits : List Hit) : List Hit :=
  hits.filter fun hit => hit.accepted args && hit.ctx.key = key

/-- An entry adds up the bytes of hits and counts them; there is none without hits. -/
def AddsUp (hits : List Hit) : Option CacheInfo → Prop
  | none => hits = []
  | some info =>
    info.readSize.toNat = (hits.map (·.bytesRead)).sum % 2 ^ 64 ∧
      info.writeSize.toNat = (hits.map (·.bytesWritten)).sum % 2 ^ 64 ∧
      info.cnt.toNat = hits.length

/-- An accepted hit finds its entry or room for one. -/
def HasRoom (entries : CachestatMap) (key : CacheKey) : Prop :=
  (entries.lookup key).isSome ∨ entries.size < cachestatMapSize

/-- The map is never full when an accepted hit needs room. -/
def NeverFull (args : UserArgs) (hits : List Hit) : Prop :=
  ∀ past hit, past ++ [hit] <+: hits → hit.accepted args →
    HasRoom (entriesAfter args past) hit.ctx.key

/-- A number of bytes is the same as a number with a sign in 32 bits. -/
def HookCtx.Narrow (ctx : HookCtx) : Prop :=
  ctx.count.toNat < 2 ^ 31 ∨ 2 ^ 64 - 2 ^ 31 ≤ ctx.count.toNat

/-- Exactly such numbers are counted as they are. -/
theorem counted_eq_iff (ctx : HookCtx) : ctx.counted = ctx.count ↔ ctx.Narrow := by
  -- A sign adds ones to the upper half, and otherwise that is zero.
  have bound := ctx.count.toNat_lt
  rw [← UInt64.toNat_inj, HookCtx.counted, toNat_signExtended, HookCtx.Narrow]
  split <;> omega

/-- What an entry adds up to, nothing where there is none. -/
structure Account where
  read : UInt64
  written : UInt64
  number : UInt64

namespace Account

/-- Nothing is read or written. -/
def zero : Account where
  read := 0
  written := 0
  number := 0

/-- The sizes and the number of an entry. -/
def ofEntry : Option CacheInfo → Account
  | none => zero
  | some info => ⟨info.readSize, info.writeSize, info.cnt⟩

/-- One more hit is taken in. -/
def plus (account : Account) : Hit → Account
  | .write ctx =>
    { account with written := account.written + ctx.counted, number := account.number + 1 }
  | .read ctx => { account with read := account.read + ctx.counted, number := account.number + 1 }

end Account

section Hits

variable {args : UserArgs} {entries : CachestatMap} {hit : Hit}

/-- A hit that the settings do not let pass leaves the entries alone. -/
theorem step_refused (refused : ¬ hit.accepted args) : hit.step args entries = entries := by
  -- Both hooks return before they look at the map.
  cases hit with
  | write ctx => exact if_neg refused
  | read ctx => exact if_neg refused

/-- A hook changes the entry of its key, or makes it where there is room. -/
theorem vfsHook_upserted {excluding : UInt32} (size : CacheInfo → UInt64)
    (setSize : CacheInfo → UInt64 → CacheInfo) {ctx : HookCtx}
    (accepted : args.accepts excluding ctx) :
    Upserted cachestatMapSize entries ctx.key (setSize ctx.fresh ctx.counted)
      (CacheInfo.takeIn size setSize ctx)
      (vfsHook excluding size setSize args entries ctx) := by
  -- The two branches of the source are the two outcomes of the lookup.
  have stored := upserted cachestatMapSize entries ctx.key (setSize ctx.fresh ctx.counted)
    (CacheInfo.takeIn size setSize ctx)
  rw [vfsHook, if_pos accepted]
  cases found : entries.lookup ctx.key with
  | none => simpa only [found] using stored
  | some info => simpa only [found] using stored

/-- An accepted hit is taken in alike whether it changes the entry of its key or makes it. -/
theorem step_upserted (entries : CachestatMap) (accepted : hit.accepted args) :
    ∃ fresh change,
      Upserted cachestatMapSize entries hit.ctx.key fresh change (hit.step args entries) ∧
      Account.ofEntry (some fresh) = (Account.ofEntry none).plus hit ∧
      ∀ info, Account.ofEntry (some (change info)) = (Account.ofEntry (some info)).plus hit := by
  -- The hooks differ in the size that they write.
  cases hit with
  | write ctx =>
    refine ⟨_, _, vfsHook_upserted _ _ accepted, ?_, ?_⟩
    · simp [Account.ofEntry, Account.plus, Account.zero, HookCtx.fresh, Hit.ctx]
    · intro info
      rfl
  | read ctx =>
    refine ⟨_, _, vfsHook_upserted _ _ accepted, ?_, ?_⟩
    · simp [Account.ofEntry, Account.plus, Account.zero, HookCtx.fresh, Hit.ctx]
    · intro info
      rfl

/-- An accepted hit with room is taken into the entry of its key. -/
theorem step_accepted (accepted : hit.accepted args) (room : HasRoom entries hit.ctx.key) :
    ((hit.step args entries).lookup hit.ctx.key).isSome ∧
      Account.ofEntry ((hit.step args entries).lookup hit.ctx.key) =
        (Account.ofEntry (entries.lookup hit.ctx.key)).plus hit := by
  -- Of the three ways the last one lacks room.
  obtain ⟨fresh, change, upserted, made, changed⟩ := step_upserted entries accepted
  generalize hit.step args entries = entries' at upserted ⊢
  cases upserted with
  | changed present =>
    rw [AList.lookup_insert, present]
    exact ⟨rfl, changed _⟩
  | added absent =>
    rw [AList.lookup_insert, absent]
    exact ⟨rfl, made⟩
  | refused absent full =>
    rcases room with present | below
    · simp [absent] at present
    · omega

/-- The entries of other keys are left alone. -/
theorem step_other {key : CacheKey} (other : hit.ctx.key ≠ key) :
    (hit.step args entries).lookup key = entries.lookup key := by
  -- A hook writes under its own key, or not at all.
  by_cases accepted : hit.accepted args
  · obtain ⟨_, _, upserted, _⟩ := step_upserted entries accepted
    exact upserted.other (Ne.symm other)
  · rw [step_refused accepted]

end Hits

section Runs

variable {args : UserArgs}

/-- Hits are run one after the other. -/
theorem entriesAfter_append (past : List Hit) (hit : Hit) :
    entriesAfter args (past ++ [hit]) = hit.step args (entriesAfter args past) := by
  -- The last hook runs on what the others left.
  simp [entriesAfter]

/-- A hit belongs to its key, if it is accepted. -/
theorem acceptedUnder_append (key : CacheKey) (past : List Hit) (hit : Hit) :
    acceptedUnder args key (past ++ [hit]) =
      acceptedUnder args key past ++
        if hit.accepted args ∧ hit.ctx.key = key then [hit] else [] := by
  -- The last hit is kept or left out.
  by_cases own : hit.accepted args ∧ hit.ctx.key = key <;>
    simp [acceptedUnder, List.filter_append, own]

/-- The entry of a key takes in its accepted hits. -/
theorem entriesAfter_accounts {hits : List Hit} (never : NeverFull args hits) (key : CacheKey) :
    (((entriesAfter args hits).lookup key).isSome ↔ acceptedUnder args key hits ≠ []) ∧
      Account.ofEntry ((entriesAfter args hits).lookup key) =
        (acceptedUnder args key hits).foldl Account.plus .zero := by
  -- Only an accepted hit of the key touches its entry.
  induction hits using List.reverseRecOn with
  | nil => simp [entriesAfter, acceptedUnder, Account.ofEntry]
  | append_singleton past hit ih =>
    obtain ⟨present, account⟩ := ih fun before next inside =>
      never before next (inside.trans (List.prefix_append ..))
    rw [entriesAfter_append, acceptedUnder_append]
    by_cases own : hit.accepted args ∧ hit.ctx.key = key
    · obtain ⟨accepted, rfl⟩ := own
      have room := never past hit (List.prefix_refl _) accepted
      obtain ⟨stored, taken⟩ := step_accepted accepted room
      simp [stored, taken, account, accepted, List.foldl_append]
    · have kept : (hit.step args (entriesAfter args past)).lookup key =
          (entriesAfter args past).lookup key := by
        by_cases accepted : hit.accepted args
        · exact step_other fun same => own ⟨accepted, same⟩
        · rw [step_refused accepted]
      simp only [kept, own, if_false, List.append_nil]
      exact ⟨present, account⟩

end Runs

/-- Hits that are counted as they are add up. -/
theorem foldl_plus {hits : List Hit} (narrow : ∀ hit ∈ hits, hit.ctx.Narrow) :
    (hits.foldl Account.plus .zero).read.toNat = (hits.map (·.bytesRead)).sum % 2 ^ 64 ∧
      (hits.foldl Account.plus .zero).written.toNat = (hits.map (·.bytesWritten)).sum % 2 ^ 64 ∧
      (hits.foldl Account.plus .zero).number.toNat = hits.length % 2 ^ 64 := by
  -- Each hit is counted as it is, so the sums agree modulo 2^64.
  induction hits using List.reverseRecOn with
  | nil => simp [Account.zero]
  | append_singleton past hit ih =>
    obtain ⟨read, written, number⟩ := ih fun other member => narrow other (by simp [member])
    have counted := (counted_eq_iff _).mpr (narrow hit (by simp))
    cases hit with
    | write ctx =>
      have counted : ctx.counted = ctx.count := counted
      simp [Account.plus, Hit.bytesRead, Hit.bytesWritten, List.foldl_append, counted, read,
        written, number, Nat.mod_add_mod]
    | read ctx =>
      have counted : ctx.counted = ctx.count := counted
      simp [Account.plus, Hit.bytesRead, Hit.bytesWritten, List.foldl_append, counted, read,
        written, number, Nat.mod_add_mod]

/-- An entry that adds up gives what it should have taken in. -/
theorem AddsUp.account {hits : List Hit} {entry : Option CacheInfo} (addsUp : AddsUp hits entry) :
    (Account.ofEntry entry).read.toNat = (hits.map (·.bytesRead)).sum % 2 ^ 64 ∧
      (Account.ofEntry entry).written.toNat = (hits.map (·.bytesWritten)).sum % 2 ^ 64 ∧
      (Account.ofEntry entry).number.toNat = hits.length := by
  -- Without an entry there are no hits to add up.
  cases entry with
  | none =>
    obtain rfl : hits = [] := addsUp
    simp [Account.ofEntry, Account.zero]
  | some info => exact addsUp

/-- An entry adds up exactly as long as the hits are fewer than its number can count. -/
theorem addsUp_iff {hits : List Hit} {entry : Option CacheInfo}
    (narrow : ∀ hit ∈ hits, hit.ctx.Narrow) (present : entry.isSome ↔ hits ≠ [])
    (account : Account.ofEntry entry = hits.foldl Account.plus .zero) :
    AddsUp hits entry ↔ hits.length < 2 ^ 64 := by
  -- The number is the only figure that is not compared modulo 2^64.
  obtain ⟨read, written, number⟩ := foldl_plus narrow
  rw [← account] at read written number
  constructor
  · intro addsUp
    rw [← addsUp.account.2.2]
    exact UInt64.toNat_lt _
  · intro few
    rw [Nat.mod_eq_of_lt few] at number
    cases entry with
    | none =>
      show hits = []
      by_contra some_
      simpa using present.mpr some_
    | some info => exact ⟨read, written, number⟩

/-- A hit after which its entry still adds up is counted as it is. -/
theorem narrow_of_addsUp {hits : List Hit} {hit : Hit} {entry entry' : Option CacheInfo}
    (before : AddsUp hits entry) (after : AddsUp (hits ++ [hit]) entry')
    (taken : Account.ofEntry entry' = (Account.ofEntry entry).plus hit) : hit.ctx.Narrow := by
  -- The sums before and after differ by the number of bytes, and by what is counted.
  obtain ⟨read, written, _⟩ := before.account
  obtain ⟨read', written', _⟩ := after.account
  rw [taken] at read' written'
  refine (counted_eq_iff _).mp (UInt64.toNat_inj.mp ?_)
  cases hit with
  | write ctx =>
    have bound := ctx.count.toNat_lt
    have counted := ctx.counted.toNat_lt
    simp [Account.plus, written, Hit.bytesWritten] at written'
    show ctx.counted.toNat = ctx.count.toNat
    omega
  | read ctx =>
    have bound := ctx.count.toNat_lt
    have counted := ctx.counted.toNat_lt
    simp [Account.plus, read, Hit.bytesRead] at read'
    show ctx.counted.toNat = ctx.count.toNat
    omega

/--
The entries of a map that is never full add up the accepted hits of their keys, after every hit of a
run, exactly where every accepted number of bytes is the same as one with a sign in 32 bits, and no
key has too many hits for its number.

A hit is taken in alike whether it makes its entry or changes it.
-/
theorem hooks_add_up (args : UserArgs) (hits : List Hit) (never : NeverFull args hits) :
    ((∀ past, past <+: hits → ∀ key,
        AddsUp (acceptedUnder args key past) ((entriesAfter args past).lookup key)) ↔
      (∀ hit ∈ hits, hit.accepted args → hit.ctx.Narrow) ∧
        ∀ key, (acceptedUnder args key hits).length < 2 ^ 64) ∧
    ∀ past hit, past ++ [hit] <+: hits → hit.accepted args →
      Account.ofEntry ((entriesAfter args (past ++ [hit])).lookup hit.ctx.key) =
        (Account.ofEntry ((entriesAfter args past).lookup hit.ctx.key)).plus hit := by
  -- One direction looks at each hit in turn, and the other one at the sums.
  have alike : ∀ past hit, past ++ [hit] <+: hits → hit.accepted args →
      Account.ofEntry ((entriesAfter args (past ++ [hit])).lookup hit.ctx.key) =
        (Account.ofEntry ((entriesAfter args past).lookup hit.ctx.key)).plus hit := by
    intro past hit inside accepted
    rw [entriesAfter_append]
    exact (step_accepted accepted (never past hit inside accepted)).2
  refine ⟨⟨fun addsUp => ⟨fun hit member accepted => ?_, fun key => ?_⟩, ?_⟩, alike⟩
  · -- The hit comes after others, and the entry adds up before and after it.
    obtain ⟨past, rest, rfl⟩ := List.append_of_mem member
    have inside : past ++ [hit] <+: past ++ hit :: rest := ⟨rest, by simp⟩
    have after := addsUp (past ++ [hit]) inside hit.ctx.key
    rw [acceptedUnder_append, if_pos ⟨accepted, rfl⟩] at after
    exact narrow_of_addsUp (addsUp past (List.prefix_append ..) hit.ctx.key) after
      (alike past hit inside accepted)
  · rw [← (addsUp hits (List.prefix_refl _) key).account.2.2]
    exact UInt64.toNat_lt _
  · intro ⟨narrow, few⟩ past inside key
    obtain ⟨present, account⟩ := entriesAfter_accounts
      (fun before hit earlier => never before hit (earlier.trans inside)) key
    refine (addsUp_iff (fun hit member => ?_) present account).mpr ?_
    · simp only [acceptedUnder, List.mem_filter, Bool.and_eq_true] at member
      exact narrow hit (inside.subset member.1) member.2.1
    · exact Nat.lt_of_le_of_lt ((inside.sublist.filter _).length_le) (few key)

/-- A run of no more hits than the map has room for never fills it. -/
theorem neverFull_of_length_le {args : UserArgs} {hits : List Hit}
    (few : hits.length ≤ cachestatMapSize) : NeverFull args hits := by
  -- Every hit makes at most one entry.
  have small : ∀ past : List Hit, (entriesAfter args past).size ≤ past.length := by
    intro past
    induction past using List.reverseRecOn with
    | nil => exact Nat.le_refl 0
    | append_singleton past hit ih =>
      rw [entriesAfter_append, List.length_append, List.length_singleton]
      by_cases accepted : hit.accepted args
      · obtain ⟨_, _, upserted, _⟩ := step_upserted (entriesAfter args past) accepted
        exact upserted.size_le_succ.trans (Nat.succ_le_succ ih)
      · rw [step_refused accepted]
        exact Nat.le_succ_of_le ih
  intro past hit inside _
  have shorter := inside.length_le
  rw [List.length_append, List.length_singleton] at shorter
  have below := small past
  exact .inr (by omega)

/-- Settings that let every hit pass. -/
def everyHit : UserArgs where
  pid := 0xFFFFFFFF
  cacheType := 0
  cpu := 0xFFFFFFFF

/-- What a task brings that reads or writes a number of bytes of a file. -/
def bytesOf (count : UInt64) : HookCtx where
  pidTgid := 0
  cpu := 0
  comm := Vector.replicate taskCommLen 0
  name := 1
  file := Vector.replicate cacheFileSize 0
  count := count

/-- A read and a write of small numbers of bytes are added up. -/
theorem hooks_add_up_small :
    AddsUp (acceptedUnder everyHit (bytesOf 0).key [.read (bytesOf 5), .write (bytesOf 7)])
      ((entriesAfter everyHit [.read (bytesOf 5), .write (bytesOf 7)]).lookup
        (bytesOf 0).key) := by
  -- Two hits are too few to fill the map.
  refine (hooks_add_up everyHit _ (neverFull_of_length_le (by decide))).1.mpr ⟨?_, ?_⟩ _
    (List.prefix_refl _) _
  · simp [HookCtx.Narrow, Hit.ctx, bytesOf]
  · intro key
    exact Nat.lt_of_le_of_lt (List.length_filter_le ..) (by decide)

/-- A write of 2^31 bytes is added as the number 2^31 below zero. -/
theorem hooks_add_up_wide :
    NeverFull everyHit [.write (bytesOf 2147483648)] ∧
      ¬ AddsUp (acceptedUnder everyHit (bytesOf 0).key [.write (bytesOf 2147483648)])
        ((entriesAfter everyHit [.write (bytesOf 2147483648)]).lookup (bytesOf 0).key) := by
  -- The sum is more than 2^63 too large.
  refine ⟨neverFull_of_length_le (by decide), ?_⟩
  intro addsUp
  exact absurd addsUp.account.2.1 (by decide +kernel)

end Spycat.Cachestat
