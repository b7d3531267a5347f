import Mathlib.Data.List.Basic

/-!
# Counting in fixed windows

A counter that a first call opens for a fixed time, and that admits a call while the count is within
a limit. `admitted` are the times of the calls it admits.

Within one window at most the limit is admitted (`length_window_le`). An interval as long as a
window meets the window that is open after its first call and the one after it, and that one ends
after the interval does, so at most twice the limit is admitted in it (`length_interval_le`). A call
after the end of a window is the first of a new one (`count_enter_of_expired`).
-/

namespace FixedWindow

/-- A window: the calls counted in it and the time it ends. -/
structure Window where
  count : Nat
  expiry : Int
  deriving DecidableEq, Repr

/-- The window after a call: the one before while it is open, or a new one of this length. -/
def enter (span : Int) (window : Option Window) (now : Int) : Window :=
  match window.filter (now < ·.expiry) with
  | some w => ⟨w.count + 1, w.expiry⟩
  | none => ⟨1, now + span⟩

/-- The window after several calls. -/
def enterAll (span : Int) : Option Window → List Int → Option Window
  | window, [] => window
  | window, now :: times => enterAll span (some (enter span window now)) times

/-- The times of the calls that are admitted. -/
def admitted (limit : Nat) (span : Int) : Option Window → List Int → List Int
  | _, [] => []
  | window, now :: times =>
    let w := enter span window now
    if w.count ≤ limit then now :: admitted limit span (some w) times
    else admitted limit span (some w) times

variable {limit : Nat} {span now : Int} {window : Option Window} {w : Window} {times : List Int}

theorem enter_of_open (h : now < w.expiry) :
    enter span (some w) now = ⟨w.count + 1, w.expiry⟩ := by
  simp [enter, Option.filter, h]

theorem enter_of_expired (h : ∀ w ∈ window, w.expiry ≤ now) :
    enter span window now = ⟨1, now + span⟩ := by
  cases window with
  | none => rfl
  | some w => simp [enter, Option.filter, Int.not_lt.2 (h w rfl)]

theorem one_le_count (window : Option Window) : 1 ≤ (enter span window now).count := by
  unfold enter
  split <;> simp

/-- A call leaves an open window. -/
theorem lt_expiry (hspan : 0 < span) (window : Option Window) :
    now < (enter span window now).expiry := by
  unfold enter
  split
  · next w hw => simpa using (Option.filter_eq_some_iff.1 hw).2
  · exact Int.lt_add_of_pos_right now hspan

theorem admitted_sublist : (admitted limit span window times).Sublist times := by
  induction times generalizing window with
  | nil => exact List.Sublist.slnil
  | cons now times ih =>
    rw [admitted]
    split
    · exact ih.cons_cons now
    · exact ih.cons now

/-! ## One window -/

/-- What an open window still admits. -/
theorem length_open_le (horder : times.Pairwise (· ≤ ·)) :
    ((admitted limit span (some w) times).filter (· < w.expiry)).length ≤ limit - w.count := by
  induction times generalizing w with
  | nil => simp [admitted]
  | cons now times ih =>
    obtain ⟨hnow, horder⟩ := List.pairwise_cons.1 horder
    by_cases hopen : now < w.expiry
    · have hrest := ih horder (w := ⟨w.count + 1, w.expiry⟩)
      rw [admitted, enter_of_open hopen]
      dsimp only at hrest ⊢
      split
      · rw [List.filter_cons_of_pos (by simpa using hopen), List.length_cons]
        omega
      · omega
    · have hempty : (admitted limit span (some w) (now :: times)).filter (· < w.expiry) = [] := by
        rw [List.filter_eq_nil_iff]
        intro time htime
        rcases List.mem_cons.1 (admitted_sublist.subset htime) with rfl | hmem
        · simpa using hopen
        · have hle := hnow time hmem
          simp only [decide_eq_true_eq]
          omega
      rw [hempty]
      exact Nat.zero_le _

/-- Until the window ends that is open after a call, the call included, at most the limit is
admitted. -/
theorem length_window_le (horder : (now :: times).Pairwise (· ≤ ·)) :
    ((admitted limit span window (now :: times)).filter
      (· < (enter span window now).expiry)).length ≤ limit := by
  have hrest : ((admitted limit span (some (enter span window now)) times).filter
      (· < (enter span window now).expiry)).length ≤ limit - (enter span window now).count :=
    length_open_le (List.pairwise_cons.1 horder).2
  have hone : 1 ≤ (enter span window now).count := one_le_count window
  rw [admitted]
  by_cases hcount : (enter span window now).count ≤ limit
  · rw [if_pos hcount, List.filter_cons]
    split
    · rw [List.length_cons]
      omega
    · omega
  · rw [if_neg hcount]
    omega

/-- A call after the end of a window is the first of a new one. -/
theorem count_enter_of_expired (h : w.expiry ≤ now) : (enter span (some w) now).count = 1 := by
  rw [enter_of_expired fun w' hw' => by cases hw'; exact h]

/-! ## Any interval -/

/-- After the end of a window, and for as long as another lasts, at most the limit is admitted. -/
theorem length_next_le {last : Int} (horder : times.Pairwise (· ≤ ·))
    (hlast : last < w.expiry + span) :
    ((admitted limit span (some w) times).filter
      fun time => w.expiry ≤ time ∧ time ≤ last).length ≤ limit := by
  induction times generalizing w with
  | nil => simp [admitted]
  | cons now times ih =>
    by_cases hopen : now < w.expiry
    · have hrest := ih (List.pairwise_cons.1 horder).2 (w := ⟨w.count + 1, w.expiry⟩) hlast
      have hout : ¬(w.expiry ≤ now ∧ now ≤ last) := fun h => Int.not_lt.2 h.1 hopen
      rw [admitted, enter_of_open hopen]
      dsimp only at hrest ⊢
      split
      · rwa [List.filter_cons_of_neg (by simpa using hout)]
      · exact hrest
    · -- The first call after the end opens a window that ends after the interval.
      have hexpired := Int.not_lt.1 hopen
      have hexpiry : (enter span (some w) now).expiry = now + span := by
        rw [enter_of_expired fun w' hw' => by cases hw'; exact hexpired]
      have hwindow : ((admitted limit span (some w) (now :: times)).filter
          (· < (enter span (some w) now).expiry)).length ≤ limit := length_window_le horder
      refine Nat.le_trans (List.Sublist.length_le (List.monotone_filter_right _ ?_)) hwindow
      intro time htime
      have htimes := of_decide_eq_true htime
      exact decide_eq_true (by omega)

theorem length_filter_le_add {l : List Int} {p q r : Int → Bool}
    (h : ∀ x, p x = true → q x = true ∨ r x = true) :
    (l.filter p).length ≤ (l.filter q).length + (l.filter r).length := by
  induction l with
  | nil => simp
  | cons x l ih =>
    have hx := h x
    simp only [List.filter_cons]
    split <;> split <;> split <;> simp_all <;> omega

/-- **In an interval as long as a window** at most twice the limit is admitted. -/
theorem length_interval_le {first last : Int} (hspan : 0 < span)
    (horder : times.Pairwise (· ≤ ·)) (hlast : last ≤ first + span) :
    ((admitted limit span window times).filter
      fun time => first ≤ time ∧ time ≤ last).length ≤ 2 * limit := by
  induction times generalizing window with
  | nil => simp [admitted]
  | cons now times ih =>
    have hrest := (List.pairwise_cons.1 horder).2
    by_cases hfirst : first ≤ now
    · -- The window of this call, and what comes after it.
      let w := enter span window now
      have hopen : now < w.expiry := lt_expiry hspan window
      have hwindow : ((admitted limit span window (now :: times)).filter (· < w.expiry)).length ≤
          limit := length_window_le horder
      have hexpiry : last < w.expiry + span := by omega
      have hnext : ((admitted limit span window (now :: times)).filter
          fun time => w.expiry ≤ time ∧ time ≤ last).length ≤ limit := by
        have hout : ¬(w.expiry ≤ now ∧ now ≤ last) := fun h => Int.not_lt.2 h.1 hopen
        have hlater : ((admitted limit span (some w) times).filter
            fun time => w.expiry ≤ time ∧ time ≤ last).length ≤ limit :=
          length_next_le hrest hexpiry
        rw [admitted]
        split
        · rwa [List.filter_cons_of_neg (by simpa using hout)]
        · exact hlater
      have hsplit := length_filter_le_add (l := admitted limit span window (now :: times))
        (p := fun time => decide (first ≤ time ∧ time ≤ last))
        (q := fun time => decide (time < w.expiry))
        (r := fun time => decide (w.expiry ≤ time ∧ time ≤ last)) (by
          intro time htime
          have htimes := of_decide_eq_true htime
          by_cases hlt : time < w.expiry
          · exact .inl (decide_eq_true hlt)
          · exact .inr (decide_eq_true ⟨Int.not_lt.1 hlt, htimes.2⟩))
      omega
    · have hout : ¬(first ≤ now ∧ now ≤ last) := fun h => hfirst h.1
      rw [admitted]
      split
      · rw [List.filter_cons_of_neg (by simpa using hout)]
        exact ih hrest
      · exact ih hrest

end FixedWindow
