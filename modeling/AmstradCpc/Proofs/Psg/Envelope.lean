/-
The sixteen shapes of the envelope. A shape is a row of ramps of sixteen levels, of which one or all
are played, and then a level that stays (`Envelope.turned`). The counter of the steps makes one level
last for a period, and the prescaler one step for eight clocks, so `level_clocks` can say what level
any number of clocks after the shape was written leads to.
-/
import Mathlib.Tactic.IntervalCases
import AmstradCpc.Proofs.Psg.Clock

namespace AmstradCpc.Psg

namespace Shape

/-- One ramp is played, and then a level stays. -/
def ends (shape : Shape) : Bool := !shape.continues || shape.hold

/-- Whether a ramp goes up, the first being number 0. -/
def rises (shape : Shape) (ramp : Nat) : Bool := shape.attack != (shape.alternate && ramp % 2 == 1)

theorem rises_zero (shape : Shape) : shape.rises 0 = shape.attack := by
  rw [rises]
  cases shape.attack <;> cases shape.alternate <;> rfl

theorem rises_succ (shape : Shape) (ramp : Nat) :
    shape.rises (ramp + 1) = (shape.rises ramp != shape.alternate) := by
  have hturn : ((ramp + 1) % 2 == 1) = !(ramp % 2 == 1) := by
    rcases Nat.mod_two_eq_zero_or_one ramp with h | h <;> simp [Nat.add_mod, h]
  rw [rises, rises, hturn]
  cases shape.attack <;> cases shape.alternate <;> cases ramp % 2 == 1 <;> rfl

/-- A ramp is played at this turn of the level. -/
def Plays (shape : Shape) (turns : Nat) : Prop := turns < 16 ∨ shape.ends = false

instance (shape : Shape) (turns : Nat) : Decidable (shape.Plays turns) :=
  inferInstanceAs (Decidable (_ ∨ _))

/-- The level that stays after the only ramp is the highest. -/
def staysUp (shape : Shape) : Bool := shape.continues && shape.rises 1

/-- The level that a shape has come to when it has turned so many times. -/
def levelAt (shape : Shape) (turns : Nat) : Nat :=
  if shape.Plays turns then if shape.rises (turns / 16) then turns % 16 else 15 - turns % 16
  else if shape.staysUp then 15 else 0

end Shape

/-! ## Steps -/

namespace Envelope

/-- The envelope of a shape when its level has turned so many times, and been stepped so often since. -/
def turned (shape : Shape) (turns count : Nat) : Envelope :=
  if shape.Plays turns then
    { counter := count.toUInt32, position := (turns % 16).toUInt8, attack := shape.rises (turns / 16),
      holding := false }
  else { counter := 0, position := 15, attack := shape.staysUp, holding := true }

variable {shape : Shape} {turns count : Nat}

theorem turned_of_plays (h : shape.Plays turns) : turned shape turns count =
    { counter := count.toUInt32, position := (turns % 16).toUInt8, attack := shape.rises (turns / 16),
      holding := false } := if_pos h

theorem turned_of_not_plays (h : ¬shape.Plays turns) :
    turned shape turns count = { counter := 0, position := 15, attack := shape.staysUp, holding := true } :=
  if_neg h

theorem turned_zero : turned shape 0 0 = start shape := by
  rw [turned_of_plays (.inl (by decide)), start, Nat.zero_div, shape.rises_zero]
  rfl

/-- A ramp that is over is followed by what the shape says. -/
theorem endRamp_turned (h : shape.Plays turns) (hlast : turns % 16 = 15) :
    (turned shape turns count).endRamp shape = turned shape (turns + 1) 0 := by
  rw [turned_of_plays h, endRamp]
  by_cases hends : shape.ends = true
  · have hover : ¬shape.Plays (turns + 1) := by
      rintro (hfew | hnever)
      · omega
      · exact absurd hends (Bool.eq_false_iff.mp hnever)
    have hfirst : turns / 16 = 0 := by
      have := h.resolve_right (Bool.eq_false_iff.not.mpr (not_not.mpr hends))
      omega
    have hup : shape.staysUp = (shape.continues && shape.rises 0 != shape.alternate) := by
      rw [Shape.staysUp, show (1 : Nat) = 0 + 1 from rfl, shape.rises_succ]
    rw [turned_of_not_plays hover, hfirst, hup]
    rw [Shape.ends] at hends
    cases hcontinues : shape.continues
    · rfl
    · simp only [hcontinues, Bool.not_true, Bool.false_or] at hends
      simp only [hends, Bool.not_true, Bool.false_eq_true, if_false, if_true, Bool.true_and]
  · have hnever := Bool.eq_false_iff.mpr hends
    rw [turned_of_plays (.inr hnever), show (turns + 1) / 16 = turns / 16 + 1 by omega, shape.rises_succ,
      show (turns + 1) % 16 = 0 by omega]
    rw [Shape.ends, Bool.or_eq_false_iff, Bool.not_eq_false'] at hnever
    simp only [hnever, Bool.not_true, Bool.false_eq_true, if_false]
    rfl

theorem toNat_max_one (period : UInt32) : (max period 1).toNat = max period.toNat 1 := by
  simp only [Max.max, UInt32.le_iff_toNat_le, apply_ite UInt32.toNat, UInt32.toNat_one]

/-- A step counts, or turns the level when the period is over. -/
theorem step_turned {period : UInt32} (hcount : count < max 1 period.toNat) :
    (turned shape turns count).step period shape =
      if count + 1 < max 1 period.toNat then turned shape turns (count + 1) else turned shape (turns + 1) 0 := by
  by_cases h : shape.Plays turns
  · have hsize := period.toNat_lt
    have hcounter : count.toUInt32 + 1 = (count + 1).toUInt32 := (UInt32.ofNat_add count 1).symm
    have hposition : (turns % 16).toUInt8 + 1 = (turns % 16 + 1).toUInt8 := (UInt8.ofNat_add (turns % 16) 1).symm
    have hmore : (count + 1).toUInt32 < max period 1 ↔ count + 1 < max 1 period.toNat := by
      rw [UInt32.lt_iff_toNat_lt, toNat_max_one, Nat.max_comm]
      exact iff_of_eq (congrArg (· < _) (Nat.mod_eq_of_lt (by omega)))
    have hramp : (turns % 16 + 1).toUInt8 < 16 ↔ turns % 16 + 1 < 16 := by
      rw [UInt8.lt_iff_toNat_lt]
      exact iff_of_eq (congrArg (· < 16) (Nat.mod_eq_of_lt (by omega)))
    have hends (hlast : turns % 16 = 15) : (turned shape turns count).endRamp shape = turned shape (turns + 1) 0 :=
      endRamp_turned h hlast
    rw [turned_of_plays h] at hends ⊢
    simp only [step, Bool.false_eq_true, if_false, hcounter, hposition, hmore, hramp]
    split
    · rw [turned_of_plays h]
    · split
      next hmore =>
        have hplays : shape.Plays (turns + 1) := h.imp_left (by omega)
        rw [turned_of_plays hplays, show (turns + 1) / 16 = turns / 16 by omega,
          show (turns + 1) % 16 = turns % 16 + 1 by omega]
        rfl
      next hmore => exact hends (by omega)
  · have hover : ¬shape.Plays (turns + 1) := fun hplays => h (hplays.imp_left (by omega))
    rw [turned_of_not_plays h, turned_of_not_plays hover, turned_of_not_plays h, ite_self]
    rfl

/-- So many steps after its start, an envelope has turned once for each period. -/
theorem steps_start (shape : Shape) (period : UInt32) (steps : Nat) :
    (fun e : Envelope => e.step period shape)^[steps] (start shape) =
      turned shape (steps / max 1 period.toNat) (steps % max 1 period.toNat) := by
  have hpos : 0 < max 1 period.toNat := Nat.lt_of_lt_of_le Nat.zero_lt_one (Nat.le_max_left ..)
  induction steps with
  | zero => rw [Nat.zero_div, Nat.zero_mod, turned_zero, Function.iterate_zero_apply]
  | succ steps ih =>
    have hcount := Nat.mod_lt steps hpos
    rw [Function.iterate_succ_apply', ih, step_turned hcount]
    set length := max 1 period.toNat
    have hsteps := Nat.mod_add_div steps length
    split
    next hmore =>
      have hnext : steps % length + 1 + length * (steps / length) = steps + 1 := by omega
      obtain ⟨hdiv, hmod⟩ := (Nat.div_mod_unique hpos).mpr ⟨hnext, hmore⟩
      rw [hdiv, hmod]
    next hmore =>
      have hnext : 0 + length * (steps / length + 1) = steps + 1 := by
        rw [Nat.mul_succ]
        omega
      obtain ⟨hdiv, hmod⟩ := (Nat.div_mod_unique hpos).mpr ⟨hnext, hpos⟩
      rw [hdiv, hmod]

/-- The level of an envelope is the one that its shape has come to. -/
theorem level_turned : (turned shape turns count).level.toNat = shape.levelAt turns := by
  have hposition : ((turns % 16).toUInt8).toNat = turns % 16 := Nat.mod_eq_of_lt (by omega)
  by_cases h : shape.Plays turns
  · rw [turned_of_plays h, Shape.levelAt, if_pos h]
    have hle : (turns % 16).toUInt8 ≤ 15 := by
      rw [UInt8.le_iff_toNat_le, hposition]
      exact Nat.le_of_lt_succ (Nat.mod_lt _ (by decide))
    have hramp : min (turns % 16).toUInt8 15 = (turns % 16).toUInt8 := if_pos hle
    simp only [level, hramp, Bool.false_eq_true, if_false]
    split
    · exact hposition
    · rw [UInt8.toNat_sub_of_le _ _ hle, hposition]
      rfl
  · rw [turned_of_not_plays h, Shape.levelAt, if_neg h, level, if_pos rfl]
    cases shape.staysUp <;> rfl

end Envelope

/-! ## The sixteen shapes -/

/-- What the level of each shape is after so many turns. The first sixteen levels are a ramp; then
eight shapes rest or fall silent, and the others go on. -/
def levelOfShape (s : UInt8) (turns : Nat) : Nat :=
  if turns < 16 then if bitOf s 2 then turns else 15 - turns
  else match s with
    | 8 => 15 - turns % 16
    | 10 => if turns / 16 % 2 = 0 then 15 - turns % 16 else turns % 16
    | 11 | 13 => 15
    | 12 => turns % 16
    | 14 => if turns / 16 % 2 = 0 then turns % 16 else 15 - turns % 16
    | _ => 0

theorem eq_of_lt_sixteen {s : UInt8} (hs : s < 16) :
    s = 0 ∨ s = 1 ∨ s = 2 ∨ s = 3 ∨ s = 4 ∨ s = 5 ∨ s = 6 ∨ s = 7 ∨ s = 8 ∨ s = 9 ∨ s = 10 ∨ s = 11 ∨
      s = 12 ∨ s = 13 ∨ s = 14 ∨ s = 15 := by
  have hlt : s.toNat < 16 := hs
  simp only [← UInt8.toNat_inj, UInt8.toNat_ofNat]
  omega

theorem levelAt_ofByte {s : UInt8} (hs : s < 16) (turns : Nat) :
    (Shape.ofByte s).levelAt turns = levelOfShape s turns := by
  by_cases hfirst : turns < 16
  · have hzero : turns / 16 = 0 := Nat.div_eq_of_lt hfirst
    rw [Shape.levelAt, if_pos (.inl hfirst), hzero, Shape.rises_zero, Nat.mod_eq_of_lt hfirst]
    exact (if_pos hfirst).symm
  · have hturn := Nat.mod_two_eq_zero_or_one (turns / 16)
    refine Eq.trans ?_ (if_neg hfirst).symm
    simp only [Shape.levelAt, Shape.Plays, hfirst, false_or, Shape.rises]
    -- Past the first ramp only the parity of the ramp and the place in it are left to matter.
    rcases hturn with hparity | hparity <;> simp only [hparity] <;>
      rcases eq_of_lt_sixteen hs with rfl | rfl | rfl | rfl | rfl | rfl | rfl | rfl | rfl | rfl | rfl | rfl |
        rfl | rfl | rfl | rfl <;>
      rfl

/-- **So many clocks after a shape was written, the envelope has the level that the closed form of
the shape gives**: the generators have moved with every eighth clock, counted from where the
prescaler stood, and the level has turned once for each period of these. -/
theorem level_clocks (p : Psg) (h : p.prescaler < 8) (v : UInt8) (n : Nat) :
    let e := (joinBytes (p.peek 12) (p.peek 11)).toNat
    let t := (p.prescaler.toNat + n) / 8
    (clock^[n] ((p.select 13).write v).1).envelope.level.toNat =
      levelOfShape (v &&& 0x0F) (t / max 1 (2 * e)) := by
  intro e t
  have hs : v &&& 0x0F < 16 := UInt8.lt_of_le_of_lt (UInt8.and_le_right ..) (by decide)
  rw [write_shape]
  set q : Psg := { p with
    selected := 13, registers := p.registers.setIfInBounds 13 (v &&& 0x0F)
    envelope := .start (.ofByte (v &&& 0x0F)) }
  have hshape : q.shape = .ofByte (v &&& 0x0F) := congrArg Shape.ofByte (Vector.getElem_setIfInBounds_self _)
  have hperiod : q.envelopePeriod.toNat = 2 * e := by
    rw [toNat_envelopePeriod, peek, peek, Vector.getElem?_setIfInBounds_ne (by decide),
      Vector.getElem?_setIfInBounds_ne (by decide)]
    rfl
  obtain ⟨-, -, henvelope⟩ := clocks_envelope (p := q) h n
  rw [henvelope, hshape, Envelope.steps_start, Envelope.level_turned, levelAt_ofByte hs, hperiod]

/-- Shape 14 with the shortest period but one: 600 clocks are 75 steps, the level turns with every
second of them, and 37 turns are five levels into the third ramp. -/
theorem level_clocks_triangle :
    let p := { (initial 1000000 44100).poke 11 1 with prescaler := 3 }
    p.prescaler < 8 ∧ (clock^[600] ((p.select 13).write 14).1).envelope.level.toNat = 5 := by
  intro p
  have hperiod : joinBytes (p.peek 12) (p.peek 11) = 1 := by decide
  exact ⟨by decide, (p.level_clocks (by decide) 14 600).trans (by rw [hperiod]; decide)⟩

end AmstradCpc.Psg
