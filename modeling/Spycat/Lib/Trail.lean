import Mathlib.Data.List.Induction

/-! Histories of marks and notes: the last mark, and the notes made before and after it. -/

namespace Spycat.Lib

variable {μ ν τ : Type}

/-- An entry of a history: a mark, which begins a new stretch, or a note in the current one. -/
inductive Entry (μ ν : Type) where
  | mark (value : μ)
  | note (value : ν)

/-- What a history comes to: its last mark, and the notes before and since. -/
structure Trail (μ ν : Type) where
  mark : Option μ
  earlier : List ν
  since : List ν

namespace Trail

/-- The trail of no history. -/
def empty : Trail μ ν where
  mark := none
  earlier := []
  since := []

/-- The trail one entry later. -/
def take (t : Trail μ ν) : Entry μ ν → Trail μ ν
  | .mark value => { mark := some value, earlier := t.earlier ++ t.since, since := [] }
  | .note value => { t with since := t.since ++ [value] }

/-- The trail of a history. -/
def of (entries : List (Entry μ ν)) : Trail μ ν := entries.foldl take empty

/-- The last note of all. -/
def lastNote (t : Trail μ ν) : Option ν := (t.earlier ++ t.since).getLast?

@[simp] theorem of_nil : of ([] : List (Entry μ ν)) = empty := rfl

@[simp] theorem of_append (entries : List (Entry μ ν)) (entry : Entry μ ν) :
    of (entries ++ [entry]) = (of entries).take entry := by
  -- A trail is built by taking one entry after the other.
  simp [of, List.foldl_append]

@[simp] theorem lastNote_empty : (empty : Trail μ ν).lastNote = none := rfl

/-- A mark leaves the notes as they are. -/
@[simp] theorem lastNote_mark (t : Trail μ ν) (value : μ) :
    (t.take (.mark value)).lastNote = t.lastNote := by
  -- A mark moves the notes since the mark before it to the older ones.
  simp [lastNote, take]

/-- A note is the last one. -/
@[simp] theorem lastNote_note (t : Trail μ ν) (value : ν) :
    (t.take (.note value)).lastNote = some value := by
  -- A note goes behind all others.
  simp [lastNote, take]

@[simp] theorem mark_mark (t : Trail μ ν) (value : μ) :
    (t.take (.mark value)).mark = some value := rfl

@[simp] theorem mark_note (t : Trail μ ν) (value : ν) : (t.take (.note value)).mark = t.mark := rfl

/-- Where there is a note since the last mark, the last note is one of those. -/
theorem lastNote_since {t : Trail μ ν} {value : ν} (last : t.since.getLast? = some value) :
    t.lastNote = some value := by
  -- The notes since the mark are the last ones.
  simp [lastNote, List.getLast?_append, last]

/--
A part of a history whose mark is the last one of the whole has that mark as its own last one, and
its notes since are those of the whole that belong to the part.
-/
theorem of_filter (own : Entry μ ν → Bool) {entries : List (Entry μ ν)} {value : μ}
    (last : (of entries).mark = some value) (mine : own (.mark value) = true) :
    (of (entries.filter own)).mark = some value ∧
      (of (entries.filter own)).since = (of entries).since.filter fun note => own (.note note) := by
  -- The history is taken apart from its end, down to the last mark.
  induction entries using List.reverseRecOn with
  | nil => cases last
  | append_singleton before entry ih =>
    rw [List.filter_append]
    cases entry with
    | mark other =>
      obtain rfl : other = value := by simpa using last
      simp [mine, take]
    | note other =>
      obtain ⟨same, since⟩ := ih (by simpa using last)
      cases belongs : own (.note other) with
      | false => simp [belongs, same, since, take]
      | true => simp [belongs, same, since, take]

/-- A part of a history without notes has none. -/
theorem since_filter_nil {own : Entry μ ν → Bool} {entries : List (Entry μ ν)}
    (before : (of entries).earlier = []) (after : (of entries).since = []) :
    (of (entries.filter own)).earlier = [] ∧ (of (entries.filter own)).since = [] := by
  -- Such a history consists of marks alone.
  induction entries using List.reverseRecOn with
  | nil => exact ⟨rfl, rfl⟩
  | append_singleton entries entry ih =>
    rw [List.filter_append]
    cases entry with
    | mark value =>
      simp only [of_append, take, List.append_eq_nil_iff] at before
      obtain ⟨earlier, since⟩ := ih before.1 before.2
      cases belongs : own (.mark value) with
      | false => simp [belongs, earlier, since]
      | true => simp [belongs, earlier, since, take]
    | note value => simp [take] at after

/-- The last mark is in the history. -/
theorem mark_mem {entries : List (Entry μ ν)} {value : μ}
    (last : (of entries).mark = some value) : .mark value ∈ entries := by
  -- Either the last entry is the mark, or it is in what comes before.
  induction entries using List.reverseRecOn with
  | nil => cases last
  | append_singleton before entry ih =>
    cases entry with
    | mark other =>
      obtain rfl : other = value := by simpa using last
      simp
    | note other => exact List.mem_append_left _ (ih (by simpa using last))

/-- A note since the last mark is in the history. -/
theorem since_mem {entries : List (Entry μ ν)} {value : ν} (since : value ∈ (of entries).since) :
    .note value ∈ entries := by
  -- Either the last entry is the note, or it is in what comes before.
  induction entries using List.reverseRecOn with
  | nil => cases since
  | append_singleton before entry ih =>
    cases entry with
    | mark other => simp [take] at since
    | note other =>
      simp only [of_append, take, List.mem_append, List.mem_singleton] at since
      rcases since with since | rfl
      · exact List.mem_append_left _ (ih since)
      · simp

/-- In a history in the order of time no note since the last mark is older than that. -/
theorem mark_le_since [LE τ] (time : Entry μ ν → τ) {entries : List (Entry μ ν)}
    (sorted : entries.Pairwise fun first second => time first ≤ time second) {value : μ}
    (last : (of entries).mark = some value) {note : ν} (since : note ∈ (of entries).since) :
    time (.mark value) ≤ time (.note note) := by
  -- A note that is the last entry comes after every mark.
  induction entries using List.reverseRecOn with
  | nil => cases last
  | append_singleton before entry ih =>
    obtain ⟨ordered, _, later⟩ := List.pairwise_append.mp sorted
    cases entry with
    | mark other => simp [take] at since
    | note other =>
      have marked : (of before).mark = some value := by simpa using last
      simp only [of_append, take, List.mem_append, List.mem_singleton] at since
      rcases since with since | rfl
      · exact ih ordered marked since
      · exact later _ (mark_mem marked) _ (by simp)

end Trail

end Spycat.Lib
