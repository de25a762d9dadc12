import Mathlib.Data.Nat.Find
import Mathlib.Logic.Function.Iterate

/-! # Retries on slots

Something is tried again and again until it is tried in one of certain slots and, on some
terms, not near the ends of it. How a try that does not come off leads to the next one
is a relation on places, slots with a position in them. A rank that every retry lowers
bounds the number of tries before one comes off (`Cadence.exists_first`). There are two
relations: `Cadence.Retry` waits for the same place of the next slot and drifts, while
`Cadence.Hop` waits for the start of it.
-/

namespace Cadence

/-- Something that becomes true as long as a rank falls until then. -/
theorem exists_first {Place : Type*} (rank : Place → ℕ) (Good : Place → Prop)
    [DecidablePred Good] (places : ℕ → Place)
    (lower : ∀ index, (∀ earlier ≤ index, ¬Good (places earlier)) →
      rank (places (index + 1)) < rank (places index)) :
    ∃ count ≤ rank (places 0), Good (places count) ∧
      ∀ index < count, ¬Good (places index) := by
  have falls : ∀ count, (∀ index < count, ¬Good (places index)) →
      count + rank (places count) ≤ rank (places 0) := by
    intro count never
    induction count with
    | zero => rw [Nat.zero_add]
    | succ count ih =>
        have before := ih fun index below => never index (Nat.lt_succ_of_lt below)
        have step := lower count fun earlier most => never earlier (Nat.lt_succ_of_le most)
        omega
  have comes : ∃ index, Good (places index) := by
    by_contra never
    have bound := falls (rank (places 0) + 1) fun index _ good => never ⟨index, good⟩
    omega
  have before : ∀ index < Nat.find comes, ¬Good (places index) :=
    fun index below => Nat.find_min comes below
  have bound := falls (Nat.find comes) before
  exact ⟨Nat.find comes, by omega, Nat.find_spec comes, before⟩

/-! ## Slots -/

/-- Slots one after the other, with the number of slots to the next one in which a try can
come off. -/
structure Course (Slot : Type*) where
  next : Slot → Slot
  dist : Slot → ℕ
  gap : ℕ
  dist_next : ∀ slot, dist slot ≠ 0 → dist (next slot) + 1 = dist slot
  dist_le : ∀ slot, dist slot ≤ gap

/-- The slots of a kind that comes again within some slots. -/
def Course.ofOpen {Slot : Type*} (next : Slot → Slot) (isOpen : Slot → Bool) (gap : ℕ)
    (again : ∀ slot, ∃ count ≤ gap, isOpen (next^[count] slot) = true) : Course Slot where
  next := next
  dist slot := Nat.find ((again slot).imp fun _ found => found.2)
  gap := gap
  dist_next slot far := by
    obtain ⟨count, found⟩ := Nat.exists_eq_succ_of_ne_zero far
    rw [found, Nat.succ_inj, Nat.find_eq_iff]
    obtain ⟨opened, before⟩ := (Nat.find_eq_iff _).mp found
    refine ⟨opened, fun earlier below => ?_⟩
    exact before (earlier + 1) (Nat.succ_lt_succ below)
  dist_le slot := by
    rw [Nat.find_le_iff]
    exact again slot

theorem Course.ofOpen_dist {Slot : Type*} {next : Slot → Slot} {isOpen : Slot → Bool} {gap : ℕ}
    (again : ∀ slot, ∃ count ≤ gap, isOpen (next^[count] slot) = true) (slot : Slot) :
    (Course.ofOpen next isOpen gap again).dist slot = 0 ↔ isOpen slot = true :=
  Nat.find_eq_zero _

/-! ## Waiting for the same place -/

/-- A grid of slots of one length that leaves room for the delays: a try that starts behind
the guard interval is still before the other one `gap` slots later, and one that has just
slipped into the guard interval at the end is led into the one at the start of the next
slot. -/
structure Grid (Slot : Type*) extends Course Slot where
  length : ℕ
  guard : ℕ
  late : ℕ
  room : (gap + 1) * late + 2 * guard ≤ length
  wide : 3 * guard + late ≤ length
  slip : 3 * late < guard

section Grid

variable {Slot : Type*} (grid : Grid Slot)

/-- How a try that does not come off leads to the next one. -/
inductive Retry : Slot × ℕ → Slot × ℕ → Prop
  | start {slot : Slot} {phase late : ℕ} (early : phase < grid.guard) (delay : late ≤ grid.late) :
      Retry (slot, phase) (slot, grid.guard + late)
  | slot {slot : Slot} {phase late : ℕ} (begun : grid.guard ≤ phase)
      (clear : phase + grid.guard ≤ grid.length) (other : grid.dist slot ≠ 0)
      (delay : late ≤ grid.late) : Retry (slot, phase) (grid.next slot, phase + late)
  | finish {slot : Slot} {phase late : ℕ} (within : phase < grid.length)
      (near : grid.length < phase + grid.guard) (delay : late ≤ grid.late) :
      Retry (slot, phase)
        (grid.next slot, 2 * (phase + grid.guard - grid.length) + late)

/-- A bound on the number of tries from a place on. -/
def rank (place : Slot × ℕ) : ℕ :=
  if place.2 < grid.guard then grid.dist place.1 + 1
  else if place.2 + grid.guard ≤ grid.length then
    if place.2 + grid.dist place.1 * grid.late + grid.guard ≤ grid.length then grid.dist place.1
    else grid.dist place.1 + grid.gap + 2
  else if place.2 + grid.guard ≤ grid.length + grid.late then grid.dist (grid.next place.1) + 2
  else 2 * grid.gap + 3

theorem rank_le (place : Slot × ℕ) : rank grid place ≤ 2 * grid.gap + 3 := by
  have here := grid.dist_le place.1
  have there := grid.dist_le (grid.next place.1)
  unfold rank
  split_ifs <;> omega

/-- A place that is not deep in the guard interval at the end. -/
theorem rank_le_of_shallow {place : Slot × ℕ}
    (shallow : place.2 + grid.guard ≤ grid.length + grid.late) :
    rank grid place ≤ 2 * grid.gap + 2 := by
  have here := grid.dist_le place.1
  have there := grid.dist_le (grid.next place.1)
  unfold rank
  split_ifs <;> omega

/-- **Every retry is of a lower rank.** -/
theorem Retry.rank_lt {place later : Slot × ℕ} (retry : Retry grid place later) :
    rank grid later < rank grid place := by
  have wide := grid.wide
  have slip := grid.slip
  cases retry with
  | @start slot phase late early delay =>
      -- behind the guard interval there is room for as many slots as it takes
      have slots := grid.dist_le slot
      have drift : grid.dist slot * grid.late ≤ grid.gap * grid.late :=
        Nat.mul_le_mul_right grid.late slots
      have room : grid.gap * grid.late + grid.late + 2 * grid.guard ≤ grid.length := by
        have room := grid.room
        rwa [Nat.add_mul, Nat.one_mul] at room
      have fresh : rank grid (slot, grid.guard + late) = grid.dist slot := by
        unfold rank
        rw [if_neg (by dsimp only; omega), if_pos (by dsimp only; omega),
          if_pos (by dsimp only; omega)]
      have before : rank grid (slot, phase) = grid.dist slot + 1 := if_pos early
      omega
  | @slot slot phase late begun clear other delay =>
      have closer := grid.dist_next slot other
      have product : grid.dist slot * grid.late =
          grid.dist (grid.next slot) * grid.late + grid.late := by
        rw [← closer, Nat.add_mul, Nat.one_mul]
      have next := grid.dist_le (grid.next (grid.next slot))
      unfold rank
      dsimp only
      split_ifs <;> omega
  | @finish slot phase late within near delay =>
      by_cases shallow : phase + grid.guard ≤ grid.length + grid.late
      · -- the place is led into the guard interval at the start of the next slot
        have before : rank grid (slot, phase) = grid.dist (grid.next slot) + 2 := by
          unfold rank
          rw [if_neg (by dsimp only; omega), if_neg (by dsimp only; omega),
            if_pos (by dsimp only; omega)]
        have after : rank grid (grid.next slot, 2 * (phase + grid.guard - grid.length) + late) =
            grid.dist (grid.next slot) + 1 :=
          if_pos (by dsimp only; omega)
        omega
      · have before : rank grid (slot, phase) = 2 * grid.gap + 3 := by
          unfold rank
          rw [if_neg (by dsimp only; omega), if_neg (by dsimp only; omega),
            if_neg (by dsimp only; omega)]
        have after : rank grid (grid.next slot, 2 * (phase + grid.guard - grid.length) + late) ≤
            2 * grid.gap + 2 :=
          rank_le_of_shallow grid (by dsimp only; omega)
        omega

end Grid

/-! ## Waiting for the start of a slot -/

section Hop

variable {Slot : Type*} (course : Course Slot) (length guard limit : ℕ)

/-- How a try that does not come off leads to the next one: to the start of the next slot
from a slot in which none comes off, and out of the guard intervals of the others, of
which the one at the end counts only before a slot in which no try comes off. -/
inductive Hop : Slot × ℕ → Slot × ℕ → Prop
  | other {slot : Slot} {phase late : ℕ} (far : course.dist slot ≠ 0) (delay : late ≤ limit) :
      Hop (slot, phase) (course.next slot, late)
  | start {slot : Slot} {phase late : ℕ} (here : course.dist slot = 0) (early : phase < guard)
      (delay : late ≤ limit) : Hop (slot, phase) (slot, guard + late)
  | finish {slot : Slot} {phase late : ℕ} (here : course.dist slot = 0)
      (near : length < phase + guard) (turns : course.dist (course.next slot) ≠ 0) :
      Hop (slot, phase) (course.next slot, late)

/-- A bound on the number of tries from a place on. -/
def hopRank (place : Slot × ℕ) : ℕ :=
  if course.dist place.1 ≠ 0 then course.dist place.1 + 1
  else if place.2 < guard then 1
  else if place.2 + guard ≤ length then 0
  else course.dist (course.next place.1) + 2

theorem hopRank_le (place : Slot × ℕ) : hopRank course length guard place ≤ course.gap + 2 := by
  have here := course.dist_le place.1
  have there := course.dist_le (course.next place.1)
  unfold hopRank
  split_ifs <;> omega

variable {course length guard limit}

/-- **Every hop is of a lower rank.** -/
theorem Hop.rank_lt (room : limit + 2 * guard ≤ length) {place later : Slot × ℕ}
    (hop : Hop course length guard limit place later) :
    hopRank course length guard later < hopRank course length guard place := by
  cases hop with
  | @other slot phase late far delay =>
      have closer := course.dist_next slot far
      unfold hopRank
      dsimp only
      split_ifs <;> omega
  | @start slot phase late here early delay =>
      unfold hopRank
      dsimp only
      rw [if_neg (not_not_intro here), if_neg (not_not_intro here), if_pos early,
        if_neg (by omega), if_pos (by omega)]
      exact Nat.zero_lt_one
  | @finish slot phase late here near turns =>
      unfold hopRank
      dsimp only
      rw [if_pos turns, if_neg (not_not_intro here), if_neg (by omega), if_neg (by omega)]
      exact Nat.lt_succ_self _

end Hop

end Cadence
