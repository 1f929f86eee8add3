/-
The pace of frames over a whole run. All that a timer keeps from one call to the next is when the
last frame was due, and it takes that from the frame before, not from the time of the call. So
early and late calls do not add up: the frame of the call numbered `n` is due `n + 1` periods after
the run began (`due_after`), until a call comes more than a second after its frame was due. What
follows such a call is the run of a timer whose last frame was due at the time of the call
(`after_late`). Times may be any, also such as go backwards.
-/
import AmstradCpc.FrameTimer
import Mathlib.Algebra.Group.Int.Defs
import Mathlib.Algebra.Group.Nat.Defs

namespace AmstradCpc.FrameTimer

/-- The timer after so many calls, which are made at these times. -/
def after (t : FrameTimer) (times : Nat → Nat) : Nat → FrameTimer
  | 0 => t
  | n + 1 => ((t.after times n).schedule (times n)).2

/-- What the call numbered `n` answers. -/
def waitAt (t : FrameTimer) (times : Nat → Nat) (n : Nat) : Nat :=
  ((t.after times n).schedule (times n)).1

/-- The call numbered `n` finds that its frame was due more than a second ago. -/
def LateAt (t : FrameTimer) (times : Nat → Nat) (n : Nat) : Prop :=
  (t.after times n).due (times n) + 10 ^ 9 < times n

instance (t : FrameTimer) (times : Nat → Nat) (n : Nat) : Decidable (t.LateAt times n) :=
  inferInstanceAs (Decidable (_ < _))

/-- As long as no call has been late, the frames are counted from `start`: the one that ends with the
call numbered `n` is due `n + 1` periods later, whatever the times of the other calls were. -/
structure KeepsPace (t : FrameTimer) (times : Nat → Nat) (start : Nat) : Prop where
  late_iff : ∀ n, (∀ k < n, ¬t.LateAt times k) →
    (t.LateAt times n ↔ start + (n + 1) * t.period + 10 ^ 9 < times n)
  wait : ∀ n, (∀ k < n, ¬t.LateAt times k) →
    (t.waitAt times n : Int) = max 0 ((start + (n + 1) * t.period : Nat) - times n : Int)

variable {t : FrameTimer} {times : Nat → Nat}

/-! ## One call -/

/-- The answer is the same whether or not the pace starts anew: there is nothing to wait for then. -/
theorem schedule_eq (hturbo : t.turbo = false) (now : Nat) : t.schedule now =
    (t.due now - now,
      { t with deadline := some (if t.due now + 10 ^ 9 < now then now else t.due now) }) := by
  have hlate : t.tooLate now = true ↔ t.due now + 10 ^ 9 < now := by
    rw [tooLate, decide_eq_true_iff, maxLag]
    omega
  simp only [schedule, hturbo, Bool.false_eq_true, if_false, hlate]
  split
  next hlate =>
    congr 1
    omega
  next => rfl

/-- Only the deadline is ever changed. -/
theorem after_eq (hturbo : t.turbo = false) (n : Nat) :
    t.after times n = { t with deadline := (t.after times n).deadline } := by
  induction n with
  | zero => rfl
  | succ n ih =>
    have hturbo' : (t.after times n).turbo = false := by rw [ih, hturbo]
    rw [after, schedule_eq hturbo', ih]

theorem turbo_after (hturbo : t.turbo = false) (n : Nat) : (t.after times n).turbo = false := by
  rw [after_eq hturbo, hturbo]

theorem period_after (hturbo : t.turbo = false) (n : Nat) : (t.after times n).period = t.period := by
  rw [after_eq hturbo]

/-- What a call makes of the deadline. -/
theorem deadline_after_succ (hturbo : t.turbo = false) (n : Nat) : (t.after times (n + 1)).deadline =
    some (if t.LateAt times n then times n else (t.after times n).due (times n)) := by
  rw [after, schedule_eq (turbo_after hturbo n)]
  rfl

theorem waitAt_eq (hturbo : t.turbo = false) (n : Nat) :
    t.waitAt times n = (t.after times n).due (times n) - times n := by
  rw [waitAt, schedule_eq (turbo_after hturbo n)]

/-! ## A run -/

/-- The calls after the first `m` of them are those of the timer that these have left. -/
theorem after_add (t : FrameTimer) (times : Nat → Nat) (m n : Nat) :
    t.after times (m + n) = (t.after times m).after (fun i => times (m + i)) n := by
  induction n with
  | zero => rfl
  | succ n ih => rw [← Nat.add_assoc, after, after, ih]

theorem due_after (hturbo : t.turbo = false) {n : Nat} (h : ∀ k < n, ¬t.LateAt times k) :
    (t.after times n).due (times n) = t.deadline.getD (times 0) + (n + 1) * t.period := by
  induction n with
  | zero => simp only [after, due, Nat.zero_add, Nat.one_mul]
  | succ n ih =>
    -- The time of the call before does not come in, since that call was not late.
    have hdue := ih fun k hk => h k (Nat.lt_succ_of_lt hk)
    rw [due, deadline_after_succ hturbo, if_neg (h n n.lt_succ_self), hdue, period_after hturbo,
      Option.getD_some, Nat.add_assoc, ← Nat.succ_mul]

theorem keepsPace (hturbo : t.turbo = false) (times : Nat → Nat) :
    t.KeepsPace times (t.deadline.getD (times 0)) where
  late_iff n h := by rw [LateAt, due_after hturbo h]
  wait n h := by
    rw [waitAt_eq hturbo, due_after hturbo h]
    omega

/-- A call that comes too late leaves the timer as if its frame had been due just then. -/
theorem after_late (hturbo : t.turbo = false) {k : Nat} (h : t.LateAt times k) :
    t.after times (k + 1) = { t with deadline := some (times k) } := by
  rw [after_eq hturbo, deadline_after_succ hturbo, if_pos h]

/-- **The pace of frames does not drift.** A new timer is called at any times. As long as no call has come
more than a second after its frame was due, the call numbered `n` answers the time until the frame is
due, `n + 1` periods after the first call, or nothing if that is over, however early or late the calls
before it were. A call that does come too late answers that there is nothing to wait for, and from
the next call on the timer answers as one whose last frame was due at the time of that call, so that
the frames are counted from there. No call leaves a deadline that is more than a second behind it. -/
theorem frames_keep_pace (period : Nat) (times : Nat → Nat) :
    let t : FrameTimer := { period, turbo := false }
    t.KeepsPace times (times 0) ∧
    (∀ k, t.LateAt times k →
      let resumed : FrameTimer := { t with deadline := some (times k) }
      let rest := fun i => times (k + 1 + i)
      t.waitAt times k = 0 ∧ (∀ n, t.waitAt times (k + 1 + n) = resumed.waitAt rest n) ∧
        (∀ n, t.LateAt times (k + 1 + n) ↔ resumed.LateAt rest n) ∧ resumed.KeepsPace rest (times k)) ∧
    ∀ n, ∃ deadline, (t.after times (n + 1)).deadline = some deadline ∧ times n ≤ deadline + 10 ^ 9 := by
  intro t
  refine ⟨keepsPace rfl times, ?_, ?_⟩
  · intro k hlate resumed rest
    have hrest (n : Nat) : t.after times (k + 1 + n) = resumed.after rest n := by
      rw [after_add, after_late rfl hlate]
    refine ⟨?_, fun n => ?_, fun n => ?_, keepsPace rfl rest⟩
    · rw [waitAt_eq rfl]
      rw [LateAt] at hlate
      omega
    · rw [waitAt, hrest]
      rfl
    · rw [LateAt, hrest]
      rfl
  · intro n
    refine ⟨_, deadline_after_succ rfl n, ?_⟩
    split
    next hlate => exact Nat.le_add_right ..
    next hearly => exact Nat.le_of_not_lt hearly

/-- Calls in time, early, late, and far too late, and one that the new pace is kept with. -/
def stalled (n : Nat) : Nat := [0, 5, 60, 5000].getD n 5015 * 10 ^ 6

theorem frames_keep_pace_stalled :
    let t : FrameTimer := { period := 20 * 10 ^ 6, turbo := false }
    (∀ k < 3, ¬t.LateAt stalled k) ∧ t.LateAt stalled 3 ∧
      t.waitAt stalled 1 = 35 * 10 ^ 6 ∧ t.waitAt stalled 3 = 0 ∧ t.waitAt stalled 4 = 5 * 10 ^ 6 := by
  intro t
  have hearly : ∀ k < 3, ¬t.LateAt stalled k := by decide
  have hlate : t.LateAt stalled 3 := by decide
  obtain ⟨hpace, hresumed, -⟩ := frames_keep_pace (20 * 10 ^ 6) stalled
  obtain ⟨hnone, hrest, -, hanew⟩ := hresumed 3 hlate
  have hsecond : (t.waitAt stalled 1 : Int) = 35 * 10 ^ 6 := hpace.wait 1 fun k hk => hearly k (by omega)
  have hfifth := hanew.wait 0 fun k hk => absurd hk k.not_lt_zero
  rw [← hrest 0] at hfifth
  exact ⟨hearly, hlate, Int.ofNat_inj.mp hsecond, hnone, Int.ofNat_inj.mp hfifth⟩

end AmstradCpc.FrameTimer
