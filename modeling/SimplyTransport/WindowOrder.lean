import SimplyTransport.DelayedCalls
import SimplyTransport.StableSort
import SimplyTransport.TimeWindows

/-!
# The order of the stop lists in their window

The services sort by the seconds of the clock counted from 03:00. Within a window of a few hours
that is the order of the window, unless 03:00 separates two of its rows.
-/

namespace SimplyTransport
open StableSort

def threeOClock : Time := ⟨10800000000, by decide⟩

def sortSeconds (t : Time) : ℤ := t.since threeOClock / 1000000

theorem sortSeconds_eq (t : Time) : sortSeconds t =
    if t.hour ≤ 2 then (t.hour * 3600 + t.minute * 60 + t.second + 75600 : ℤ)
    else (t.hour * 3600 + t.minute * 60 + t.second - 10800 : ℤ) := by
  have ht := t.lt_day
  simp only [sortSeconds, Time.since, threeOClock, Time.hour, Time.minute, Time.second]
  unfold dayMicros at ht ⊢
  split_ifs <;> omega

theorem hms_lt (t : Time) : t.hour < 24 ∧ t.minute < 60 ∧ t.second < 60 := by
  have ht := t.lt_day
  unfold dayMicros at ht
  unfold Time.hour Time.minute Time.second
  omega

/-- The tuples of the sort compare as the seconds from 03:00. -/
theorem customSortKey_le_iff (t u : Time) :
    customSortKey t ≤ customSortKey u ↔ sortSeconds t ≤ sortSeconds u := by
  have ht := hms_lt t
  have hu := hms_lt u
  rw [sortSeconds_eq, sortSeconds_eq]
  unfold customSortKey
  split_ifs <;> rw [← not_lt] <;>
    simp only [List.cons_lt_cons_iff, List.not_lt_nil, true_and, and_false, or_false] <;>
    omega

/-- The sort compares the rows by the seconds from 03:00. -/
theorem applyCustom2300Sorting_eq {α : Type} (arrivalTime : α → Time) (rows : List α) :
    applyCustom2300Sorting arrivalTime rows =
      rows.mergeSort (fun a b => sortSeconds (arrivalTime a) ≤ sortSeconds (arrivalTime b)) := by
  simp only [applyCustom2300Sorting, customSortKey_le_iff]

/-- In the window from `s`, one of the times comes before 03:00 and the other does not. -/
def SeparatedByThree (s a b : Time) : Prop :=
  a.since s < threeOClock.since s ∧ threeOClock.since s ≤ b.since s

instance (s a b : Time) : Decidable (SeparatedByThree s a b) := by
  unfold SeparatedByThree
  infer_instance

/-- Of two times of one window of at most six hours, the sort keeps the order of the window, unless
03:00 separates them or they are in the wrong order within one second. -/
theorem sortSeconds_le_iff_since {s a b : Time} (ha : a.since s ≤ 21600000000)
    (hb : b.since s ≤ 21600000000) :
    (sortSeconds a ≤ sortSeconds b ↔ a.since s ≤ b.since s) ↔
      (¬ SeparatedByThree s a b ∧ ¬ SeparatedByThree s b a) ∧
        (a.micros / 1000000 = b.micros / 1000000 → a ≤ b) := by
  have hs := s.lt_day
  have hat := a.lt_day
  have hbt := b.lt_day
  simp only [SeparatedByThree, sortSeconds, Time.since, threeOClock, Time.le_iff] at ha hb ⊢
  unfold dayMicros at hs hat hbt ha hb ⊢
  omega

section Rows

variable {α : Type} (arrivalTime : α → Time) (s : Time)

/-- `sorted` lists the rows in the order of the window from `s`, and rows of one time as before. -/
def ChronologicalFrom (rows sorted : List α) : Prop :=
  StableSortedBy (fun r => (arrivalTime r).since s) rows sorted

/-- No two rows of the window lie on different sides of 03:00, and rows of one second come in the
order of their times. -/
def NotSeparated (rows : List α) : Prop :=
  (∀ a ∈ rows, ∀ b ∈ rows, ¬ SeparatedByThree s (arrivalTime a) (arrivalTime b)) ∧
    rows.Pairwise (fun a b => (arrivalTime a).micros / 1000000 = (arrivalTime b).micros / 1000000 →
      arrivalTime a ≤ arrivalTime b)

theorem pairwise_not_separated_iff (rows : List α) :
    rows.Pairwise (fun a b => ¬ SeparatedByThree s (arrivalTime a) (arrivalTime b) ∧
        ¬ SeparatedByThree s (arrivalTime b) (arrivalTime a)) ↔
      ∀ a ∈ rows, ∀ b ∈ rows, ¬ SeparatedByThree s (arrivalTime a) (arrivalTime b) := by
  constructor
  · intro h a ha b hb
    have hsymm : Std.Symm fun a b => ¬ SeparatedByThree s (arrivalTime a) (arrivalTime b) ∧
        ¬ SeparatedByThree s (arrivalTime b) (arrivalTime a) := ⟨fun _ _ h => h.symm⟩
    refine (List.Pairwise.forall_of_forall (fun c _ => ?_) h ha hb).1
    have hself : ¬ SeparatedByThree s (arrivalTime c) (arrivalTime c) :=
      fun hc => absurd hc.1 (not_lt.2 hc.2)
    exact ⟨hself, hself⟩
  · intro h
    exact List.pairwise_of_forall_mem_list fun a ha b hb => ⟨h a ha b hb, h b hb a ha⟩

theorem chronologicalFrom_iff {rows : List α}
    (h : ∀ r ∈ rows, (arrivalTime r).since s ≤ 21600000000) :
    ChronologicalFrom arrivalTime s rows (applyCustom2300Sorting arrivalTime rows) ↔
      NotSeparated arrivalTime s rows := by
  rw [ChronologicalFrom, applyCustom2300Sorting_eq, stableSortedBy_mergeSort_iff, NotSeparated,
    ← pairwise_not_separated_iff, ← List.pairwise_and_iff]
  exact List.Pairwise.iff_of_mem fun ha hb => sortSeconds_le_iff_since (h _ ha) (h _ hb)

end Rows

/-- In a window of at most six hours, each service returns the rows in the order of the window
exactly where 03:00 does not separate them. -/
theorem window_sorting_iff (s : Time) (length : ℤ) (hlength : length ≤ 21600000000) :
    (∀ rows : List StaticScheduleModel, (∀ r ∈ rows, r.stopTime.arrivalTime.since s ≤ length) →
      (ChronologicalFrom (fun r => r.stopTime.arrivalTime) s rows
          (applyCustom2300Sorting (fun r => r.stopTime.arrivalTime) rows) ↔
        NotSeparated (fun r : StaticScheduleModel => r.stopTime.arrivalTime) s rows)) ∧
    ∀ rows : List RealtimeScheduleModel, (∀ r ∈ rows, r.realArrivalTime.since s ≤ length) →
      (ChronologicalFrom (fun r => r.realArrivalTime) s rows
          (applyCustom2300Sorting (fun r => r.realArrivalTime) rows) ↔
        NotSeparated (fun r : RealtimeScheduleModel => r.realArrivalTime) s rows) :=
  ⟨fun _ h => chronologicalFrom_iff _ s fun r hr => (h r hr).trans hlength,
    fun _ h => chronologicalFrom_iff _ s fun r hr => (h r hr).trans hlength⟩

/-- The window of the page at twenty to midnight. -/
theorem window_sorting_midnight :
    ChronologicalFrom (fun r => r.stopTime.arrivalTime) ⟨84600000000, by decide⟩
      [callAt ⟨600000000, by decide⟩, callAt ⟨85800000000, by decide⟩]
      (applyCustom2300Sorting (fun r => r.stopTime.arrivalTime)
        [callAt ⟨600000000, by decide⟩, callAt ⟨85800000000, by decide⟩]) :=
  ((window_sorting_iff ⟨84600000000, by decide⟩ 4200000000 (by decide)).1
    [callAt ⟨600000000, by decide⟩, callAt ⟨85800000000, by decide⟩] (by decide)).2
      ⟨by decide, by decide⟩

/-- In the window of the page at twenty to three, a bus of 02:45 is listed after one of 03:10. -/
theorem page_order_wrong_at_three :
    ¬ ∀ (s : Time) (length : ℤ), length ≤ 21600000000 →
      (∀ rows : List StaticScheduleModel, (∀ r ∈ rows, r.stopTime.arrivalTime.since s ≤ length) →
        ChronologicalFrom (fun r => r.stopTime.arrivalTime) s rows
          (applyCustom2300Sorting (fun r => r.stopTime.arrivalTime) rows)) ∧
      ∀ rows : List RealtimeScheduleModel, (∀ r ∈ rows, r.realArrivalTime.since s ≤ length) →
        ChronologicalFrom (fun r => r.realArrivalTime) s rows
          (applyCustom2300Sorting (fun r => r.realArrivalTime) rows) := by
  intro h
  have hsorted := (h ⟨9000000000, by decide⟩ 4200000000 (by decide)).1
    [callAt ⟨9900000000, by decide⟩, callAt ⟨11400000000, by decide⟩] (by decide)
  have hseparated := (chronologicalFrom_iff _ _ (by decide)).1 hsorted
  exact hseparated.1 (callAt ⟨9900000000, by decide⟩) (by simp)
    (callAt ⟨11400000000, by decide⟩) (by simp) (by decide)

end SimplyTransport
