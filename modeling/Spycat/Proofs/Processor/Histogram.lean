import Mathlib.Data.List.Induction
import Spycat.Processor.AggValues

/-! What histograms hold of the values fed to them, and which histograms they merge. -/

namespace Spycat

open Lib

namespace HistogramValue

/-- A histogram that holds nothing yet. -/
def fresh (boundaries : List Int64) : HistogramValue where
  sum := 0
  count := 0
  explicitBoundaries := boundaries
  bucketCounts := List.replicate boundaries.length 0
  aligned := by simp

/-- A histogram that is configured starts as a fresh one. -/
theorem new_histogram {cfg : KindConfig} (kind : cfg.kind = .histogram) :
    AggregatedValue.new cfg = .histogram (fresh cfg.explicitBoundaries) := by
  -- The kind decides what is made.
  rw [AggregatedValue.new, kind]
  rfl

/-- What a histogram reports is its snapshot. -/
theorem get_histogram (v : HistogramValue) :
    (AggregatedValue.histogram v).get = some (.histogram v.snapshot) := rfl

/-- Feed values to a histogram one after the other. -/
def feed (v : HistogramValue) (values : List Int64) : HistogramValue := values.foldl calculate v

/-- Histograms over the same boundaries are equal when their sums, counts and buckets are. -/
theorem eq_of {v w : HistogramValue} (sum : v.sum = w.sum) (count : v.count = w.count)
    (boundaries : v.explicitBoundaries = w.explicitBoundaries)
    (buckets : v.bucketCounts = w.bucketCounts) : v = w := by
  -- The proof that there is a bucket for each boundary is no data.
  cases v
  cases w
  simp_all

/-- The values in a list that do not exceed a boundary. -/
def upTo (values : List Int64) (boundary : Int64) : Nat := values.countP (· ≤ boundary)

/-- A histogram holds of values their sum and how many there are, all and up to each boundary. -/
structure Tallies (boundaries values : List Int64) (v : HistogramValue) : Prop where
  edges : v.explicitBoundaries = boundaries
  sum : v.sum = values.sum
  count : v.count = UInt64.ofNat values.length
  buckets : v.bucketCounts = boundaries.map fun boundary => UInt64.ofNat (upTo values boundary)

/-- Feeding values tallies them. -/
theorem feed_tallies (boundaries values : List Int64) :
    Tallies boundaries values ((fresh boundaries).feed values) := by
  -- The induction takes the values from the end, where the last one was fed.
  induction values using List.reverseRecOn with
  | nil => exact ⟨rfl, rfl, rfl, by simp [feed, fresh, upTo, List.map_const']⟩
  | append_singleton values value ih =>
    have last : (fresh boundaries).feed (values ++ [value]) =
        ((fresh boundaries).feed values).calculate value := by
      simp [feed]
    rw [last]
    refine ⟨ih.edges, ?_, ?_, ?_⟩
    · simp [calculate, ih.sum]
    · simp [calculate, ih.count]
    · -- A bucket counts one more where the value does not exceed its boundary.
      simp only [calculate, ih.edges, ih.buckets, List.zipWith_map_right, List.zipWith_self]
      refine List.map_congr_left fun boundary _ => ?_
      by_cases below : value ≤ boundary <;> simp [upTo, below]

/-- More values do not exceed a larger boundary. -/
theorem upTo_mono (values : List Int64) {small large : Int64} (le : small ≤ large) :
    upTo values small ≤ upTo values large :=
  -- Every value that is counted for the small boundary is counted for the large one.
  List.countP_mono_left fun value _ below => by
    simp only [decide_eq_true_eq] at below ⊢
    exact Int64.le_trans below le

/-- Histograms that tally lists with the same values are the same. -/
theorem Tallies.unique {boundaries values others : List Int64} {v w : HistogramValue}
    (tallies : Tallies boundaries values v) (tallied : Tallies boundaries others w)
    (same : values.Perm others) : v = w := by
  -- Neither a sum nor a number of values depends on the order of the values.
  refine eq_of ?_ ?_ ?_ ?_
  · rw [tallies.sum, tallied.sum, same.sum_eq]
  · rw [tallies.count, tallied.count, same.length_eq]
  · rw [tallies.edges, tallied.edges]
  · rw [tallies.buckets, tallied.buckets]
    refine List.map_congr_left fun boundary _ => ?_
    rw [upTo, upTo, same.countP_eq]

/-- Merging a snapshot adds its tallies. -/
theorem Tallies.merge {boundaries values others : List Int64} {v w : HistogramValue}
    (tallies : Tallies boundaries values v) (tallied : Tallies boundaries others w) :
    ∃ merged, v.merge w.snapshot = some merged ∧ Tallies boundaries (values ++ others) merged := by
  -- The snapshot is of the same shape, so it is neither refused nor cut.
  have buckets : w.bucketCounts.length = v.bucketCounts.length := by
    rw [tallied.buckets, tallies.buckets, List.length_map, List.length_map]
  have edges : ¬ v.explicitBoundaries.length ≠ w.snapshot.explicitBoundaries.length := by
    simp [snapshot, tallies.edges, tallied.edges]
  have short : w.snapshot.bucketCounts.length ≤ v.bucketCounts.length := buckets.le
  rw [HistogramValue.merge, if_neg edges, dif_pos short]
  refine ⟨_, rfl, tallies.edges, ?_, ?_, ?_⟩
  · rw [List.sum_append, ← tallies.sum, ← tallied.sum]
    rfl
  · simp [snapshot, tallies.count, tallied.count]
  · -- Every bucket gets the one of the same boundary.
    simp only [snapshot, addBuckets, buckets, List.drop_length, List.append_nil]
    simp [tallies.buckets, tallied.buckets, upTo]

/-- A histogram holds what its values say: numbers of values are exact, and buckets increase. -/
structure Exact (boundaries values : List Int64) (v : HistogramValue) : Prop where
  count : v.count.toNat = values.length
  buckets : v.bucketCounts.map UInt64.toNat = boundaries.map (upTo values)
  ascending : boundaries.Pairwise (· ≤ ·) → v.bucketCounts.Pairwise (· ≤ ·)
  within : ∀ bucket ∈ v.bucketCounts, bucket ≤ v.count

/-- Tallies of fewer values than a counter can count are exact. -/
theorem Tallies.exact_ {boundaries values : List Int64} {v : HistogramValue}
    (tallies : Tallies boundaries values v) (few : values.length < 2 ^ 64) :
    Exact boundaries values v := by
  -- No counter has counted far enough to start anew.
  have counted : ∀ boundary,
      (UInt64.ofNat (upTo values boundary)).toNat = upTo values boundary := fun boundary =>
    UInt64.toNat_ofNat_of_lt' (Nat.lt_of_le_of_lt List.countP_le_length few)
  have all : v.count.toNat = values.length := by
    rw [tallies.count, UInt64.toNat_ofNat_of_lt' few]
  refine ⟨all, ?_, fun ascending => ?_, fun bucket member => ?_⟩
  · rw [tallies.buckets, List.map_map]
    exact List.map_congr_left fun boundary _ => counted boundary
  · -- Whatever does not exceed a boundary does not exceed a later one.
    rw [tallies.buckets, List.pairwise_map]
    refine ascending.imp fun le => UInt64.le_iff_toNat_le.mpr ?_
    rw [counted, counted]
    exact upTo_mono values le
  · rw [tallies.buckets, List.mem_map] at member
    obtain ⟨boundary, _, rfl⟩ := member
    rw [UInt64.le_iff_toNat_le, counted, all]
    exact List.countP_le_length

/--
A histogram that merges a snapshot in holds what was fed to both, in whatever order it is fed.

Numbers of values are held modulo 2^64, and exactly for fewer than 2^64 values.
-/
theorem merge_feed (boundaries xs ys zs : List Int64) (reordered : zs.Perm (xs ++ ys)) :
    ((fresh boundaries).feed xs).merge ((fresh boundaries).feed ys).snapshot =
        some ((fresh boundaries).feed zs) ∧
      Tallies boundaries zs ((fresh boundaries).feed zs) ∧
        (zs.length < 2 ^ 64 → Exact boundaries zs ((fresh boundaries).feed zs)) := by
  -- Both ways of feeding lead to tallies of the same values.
  obtain ⟨merged, done, tallies⟩ := (feed_tallies boundaries xs).merge (feed_tallies boundaries ys)
  have fed := feed_tallies boundaries zs
  rw [done, tallies.unique fed reordered.symm]
  exact ⟨rfl, fed, fed.exact_⟩

/-- Two values that are fed the other way round. -/
theorem merge_feed_two :
    ((fresh [0, 5]).feed [3]).merge ((fresh [0, 5]).feed [-2]).snapshot =
      some ((fresh [0, 5]).feed [-2, 3]) :=
  -- The values of both parts are those of the whole, in another order.
  (merge_feed [0, 5] [3] [-2] [-2, 3] (by decide)).1

/-- Zeros and a one are tallied under the boundaries 0 and 1. -/
theorem feed_zeros (number : Nat) :
    ((fresh [0, 1]).feed (List.replicate number 0 ++ [1])).bucketCounts =
        [UInt64.ofNat number, UInt64.ofNat (number + 1)] ∧
      ((fresh [0, 1]).feed (List.replicate number 0 ++ [1])).count = UInt64.ofNat (number + 1) ∧
        upTo (List.replicate number 0 ++ [1]) 1 = number + 1 := by
  -- The zeros count under both boundaries, and the one only under its own.
  have fed := feed_tallies [0, 1] (List.replicate number 0 ++ [1])
  have zero : upTo (List.replicate number 0 ++ [1]) 0 = number := by
    simp [upTo, List.countP_replicate]
  have one : upTo (List.replicate number 0 ++ [1]) 1 = number + 1 := by
    simp [upTo, List.countP_replicate]
  refine ⟨?_, ?_, one⟩
  · rw [fed.buckets, List.map_cons, List.map_cons, List.map_nil, zero, one]
  · rw [fed.count]
    simp

/-- After 2^64 - 1 zeros and a one, the bucket under 1 and the count have wrapped around. -/
theorem feed_wraps :
    ((fresh [0, 1]).feed (List.replicate (2 ^ 64 - 1) 0 ++ [1])).bucketCounts =
        [18446744073709551615, 0] ∧
      ((fresh [0, 1]).feed (List.replicate (2 ^ 64 - 1) 0 ++ [1])).count = 0 ∧
        upTo (List.replicate (2 ^ 64 - 1) 0 ++ [1]) 1 = 2 ^ 64 := by
  -- The numbers are those of the tallies, taken modulo 2^64.
  obtain ⟨buckets, count, number⟩ := feed_zeros (2 ^ 64 - 1)
  exact ⟨buckets.trans rfl, count.trans rfl, number⟩

/-- How a merge has to go: a histogram over other boundaries is refused, and any other one added. -/
structure MergesRight (v : HistogramValue) (metric : Histogram) : Prop where
  refused : ¬(metric.explicitBoundaries = v.explicitBoundaries ∧
      metric.bucketCounts.length = v.explicitBoundaries.length) →
    ∃ err, v.tryMerge metric = some (v, some err)
  added : metric.explicitBoundaries = v.explicitBoundaries →
    metric.bucketCounts.length = v.explicitBoundaries.length →
      ∃ merged, v.tryMerge metric = some (merged, none) ∧ merged.sum = v.sum + metric.sum ∧
        merged.count = v.count + metric.count ∧
          merged.explicitBoundaries = v.explicitBoundaries ∧
            merged.bucketCounts = List.zipWith (· + ·) v.bucketCounts metric.bucketCounts

/-- A histogram over another number of boundaries is refused, and no other one is. -/
theorem tryMerge_refused_iff {v : HistogramValue} {metric : Histogram} :
    (∃ err, v.tryMerge metric = some (v, some err)) ↔
      v.explicitBoundaries.length ≠ metric.explicitBoundaries.length := by
  -- Past the comparison of the lengths there is no error left to return.
  unfold tryMerge
  split
  · rename_i other
    exact iff_of_true ⟨mergeFailed, rfl⟩ other
  · rename_i same
    refine iff_of_false ?_ same
    intro told
    obtain ⟨err, refused⟩ := told
    obtain ⟨merged, _, absurd_⟩ := Option.map_eq_some_iff.mp refused
    cases absurd_

/--
A merge goes right exactly where the numbers of boundaries differ, or the boundaries are the same
and every one has its bucket.
-/
theorem tryMerge_right_iff (v : HistogramValue) (metric : Histogram) :
    MergesRight v metric ↔
      v.explicitBoundaries.length ≠ metric.explicitBoundaries.length ∨
        metric.explicitBoundaries = v.explicitBoundaries ∧
          metric.bucketCounts.length = v.explicitBoundaries.length := by
  -- Only the lengths of the boundaries are compared before the counts are added.
  constructor
  · intro right
    by_cases fits : metric.explicitBoundaries = v.explicitBoundaries ∧
        metric.bucketCounts.length = v.explicitBoundaries.length
    · exact .inr fits
    · exact .inl (tryMerge_refused_iff.mp (right.refused fits))
  · intro condition
    refine ⟨fun other => tryMerge_refused_iff.mpr (condition.resolve_right other), ?_⟩
    intro edges buckets
    have same : ¬ v.explicitBoundaries.length ≠ metric.explicitBoundaries.length := by
      simp [edges]
    have all : metric.bucketCounts.length = v.bucketCounts.length := buckets.trans v.aligned.symm
    -- The buckets are added one by one, and none is left over.
    rw [tryMerge, if_neg same, merge, if_neg same, dif_pos all.le]
    refine ⟨_, rfl, rfl, rfl, rfl, ?_⟩
    simp [addBuckets, all]

/-- A histogram with one bucket under 1. -/
def oneBucket : HistogramValue := (fresh [1]).feed [0]

/-- One over another boundary is added to it, one with two buckets panics, one without is taken. -/
theorem tryMerge_goes_wrong :
    (∃ merged, oneBucket.tryMerge ⟨7, 1, [9], [1]⟩ = some (merged, none) ∧
        merged.bucketCounts = [2] ∧ ¬MergesRight oneBucket ⟨7, 1, [9], [1]⟩) ∧
      oneBucket.tryMerge ⟨7, 1, [1], [1, 1]⟩ = none ∧
      ∃ merged, oneBucket.tryMerge ⟨7, 1, [1], []⟩ = some (merged, none) := by
  -- Each of the three merges is evaluated.
  refine ⟨⟨_, rfl, rfl, fun right => ?_⟩, rfl, _, rfl⟩
  obtain ⟨err, refused⟩ := right.refused (by decide)
  cases refused

end HistogramValue

end Spycat
