/-
Counting in single precision. Every finite number of single precision is so many times `2 ^ (-149)`,
the smallest one above zero. A sum is rounded to 24 places, up or down, but never past a number of
so many places that the exact sum is not past: what is at least `n` is at least `n + 1` when one is
added, as long as `n` is below `2 ^ 24`. From there on the numbers of 24 places are two apart, and
adding one to `2 ^ 24` leaves it where it is.
-/
import Mathlib

namespace AmstradCpc.SinglePrecision

open Float.Model (Format UnpackedFloat totalExponent)
open Float.Model.UnpackedFloat (Accuracy ExtendedMantissa Sign decreaseExponent pack packComponents roundWithAccuracy
  shiftToExponent shiftToTargetExponent unpack unpackExponent_packComponents unpackMantissa_packComponents
  unpackSign_packComponents)

/-! ## Units -/

/-- How many times `2 ^ (-149)` a mantissa with its exponent is. -/
def units (m : Nat) (e : Int) : Nat := m * 2 ^ (e + 149).toNat

/-- A whole number, in the same units. -/
def whole (n : Nat) : Nat := n * 2 ^ 149

/-- A mantissa has 24 places, or fewer at the lowest exponent. -/
structure Normal (m : Nat) (e : Int) : Prop where
  lowest : -149 ≤ e
  lt : m < 2 ^ 24
  full : e = -149 ∨ 2 ^ 23 ≤ m

variable {m m₁ m₂ : Nat} {e e₁ e₂ : Int}

theorem units_lt_of_exponent_lt (h₁ : Normal m₁ e₁) (h₂ : Normal m₂ e₂) (h : e₁ < e₂) :
    units m₁ e₁ < units m₂ e₂ := by
  have hlow := h₁.lowest
  have hfull : 2 ^ 23 ≤ m₂ := h₂.full.resolve_left (by omega)
  have hexponent : (e₁ + 149).toNat + 1 ≤ (e₂ + 149).toNat := by omega
  calc units m₁ e₁ < 2 ^ 24 * 2 ^ (e₁ + 149).toNat := Nat.mul_lt_mul_of_pos_right h₁.lt (Nat.two_pow_pos _)
    _ = 2 ^ 23 * 2 ^ ((e₁ + 149).toNat + 1) := by rw [← Nat.pow_add, ← Nat.pow_add]; congr 1; omega
    _ ≤ units m₂ e₂ := Nat.mul_le_mul hfull (Nat.pow_le_pow_right (by decide) hexponent)

/-- Numbers in normal form are compared by their exponents first. -/
theorem isLE_then_iff (h₁ : Normal m₁ e₁) (h₂ : Normal m₂ e₂) :
    ((compare e₁ e₂).then (compare m₁ m₂)).isLE = true ↔ units m₁ e₁ ≤ units m₂ e₂ := by
  rcases lt_trichotomy e₁ e₂ with h | h | h
  · have hlt := units_lt_of_exponent_lt h₁ h₂ h
    simp [Int.compare_eq_lt.mpr h, hlt.le]
  · subst h
    rw [Int.compare_eq_eq.mpr rfl, units, units, Nat.mul_le_mul_right_iff (Nat.two_pow_pos _)]
    exact Nat.isLE_compare
  · have hlt := units_lt_of_exponent_lt h₂ h₁ h
    simp [Int.compare_eq_gt.mpr h, hlt]

/-! ## Rounding -/

/-- A mantissa without so many of its places, rounded. -/
def nearest (m n : Nat) : Nat := (n.repeat ExtendedMantissa.shiftRightOne ⟨m, false, false⟩).roundedMantissa

theorem mantissa_repeat (em : ExtendedMantissa) (n : Nat) :
    (n.repeat ExtendedMantissa.shiftRightOne em).mantissa = em.mantissa / 2 ^ n := by
  induction n with
  | zero => simp [Nat.repeat]
  | succ n ih => rw [Nat.repeat, ExtendedMantissa.shiftRightOne, ih, Nat.div_div_eq_div_mul, Nat.pow_succ]

theorem repeat_shiftRightOne (m n : Nat) :
    n.repeat ExtendedMantissa.shiftRightOne ⟨m * 2 ^ n, false, false⟩ = ⟨m, false, false⟩ := by
  induction n generalizing m with
  | zero => simp [Nat.repeat]
  | succ n ih =>
    rw [Nat.pow_succ', ← Nat.mul_assoc, Nat.repeat, ih, ExtendedMantissa.shiftRightOne]
    simp

theorem roundedMantissa_bounds (em : ExtendedMantissa) :
    em.mantissa ≤ em.roundedMantissa ∧ em.roundedMantissa ≤ em.mantissa + 1 := by
  have hlast := Nat.mod_lt em.mantissa (show 0 < 2 by decide)
  simp only [ExtendedMantissa.roundedMantissa, Accuracy.roundToNearestEven]
  split <;> omega

/-- Nothing is rounded below a number that it is not below. -/
theorem le_nearest {k n : Nat} (h : k * 2 ^ n ≤ m) : k ≤ nearest m n := by
  refine Nat.le_trans ?_ (roundedMantissa_bounds _).1
  rw [mantissa_repeat]
  exact (Nat.le_div_iff_mul_le (Nat.two_pow_pos n)).mpr h

/-- Nothing is rounded above a number that it is not above. -/
theorem nearest_le {k n : Nat} (h : m ≤ k * 2 ^ n) : nearest m n ≤ k := by
  rcases Nat.eq_or_lt_of_le h with heq | hlt
  · rw [nearest, heq, repeat_shiftRightOne]
    exact Nat.le_refl k
  · refine Nat.le_trans (roundedMantissa_bounds _).2 ?_
    rw [mantissa_repeat]
    exact (Nat.div_lt_iff_lt_mul (Nat.two_pow_pos n)).mpr hlt

theorem log2_mul_two_pow (h : m ≠ 0) (n : Nat) : (m * 2 ^ n).log2 = m.log2 + n := by
  have hpos := Nat.two_pow_pos n
  refine (Nat.log2_eq_iff (Nat.mul_ne_zero h hpos.ne')).mpr ⟨?_, ?_⟩
  · rw [Nat.pow_add]
    exact Nat.mul_le_mul_right _ (Nat.log2_self_le h)
  · rw [Nat.add_right_comm, Nat.pow_add]
    exact Nat.mul_lt_mul_of_pos_right Nat.lt_log2_self hpos

/-- The place of the last of the 24 places of a number, counted from the lowest. -/
def lastPlace (u : Nat) : Nat := u.log2 - 23

theorem targetExponent_eq (h : m ≠ 0) (a : Nat) :
    Format.binary32.targetExponent (totalExponent m (a - 149)) = (lastPlace (m * 2 ^ a) : Int) - 149 := by
  rw [lastPlace, log2_mul_two_pow h, Format.targetExponent, totalExponent, Format.minExponent, Format.mantissaBits]
  dsimp only
  omega

/-- A mantissa of 24 places, or one more than the greatest of them, is normal without its last place or as it is. -/
theorem exists_normal {r t : Nat} (hr : r ≤ 2 ^ 24) (hpos : 0 < r) (hfull : t = 0 ∨ 2 ^ 23 ≤ r) :
    ∃ m e, 0 < m ∧ Normal m e ∧ units m e = r * 2 ^ t ∧
      (shiftToTargetExponent .binary32 r (t - 149) .exact).1.mantissa = m ∧
      (shiftToTargetExponent .binary32 r (t - 149) .exact).2 = e := by
  have hlog := log2_mul_two_pow hpos.ne' t
  rw [shiftToTargetExponent, targetExponent_eq hpos.ne' t, lastPlace, hlog, shiftToExponent]
  rcases Nat.eq_or_lt_of_le hr with heq | hlt
  · have hshift : (((r.log2 + t - 23 : Nat) : Int) - 149 - (t - 149)).toNat = 1 := by
      rw [heq, Nat.log2_two_pow]
      omega
    refine ⟨2 ^ 23, t + 1 - 149, by decide, ⟨by omega, by decide, .inr (Nat.le_refl _)⟩, ?_, ?_, ?_⟩
    · have hplace : ((t : Int) + 1 - 149 + 149).toNat = t + 1 := by omega
      rw [units, hplace, heq, Nat.pow_succ]
      omega
    · rw [hshift, heq]
      rfl
    · rw [hshift]
      omega
  · have hshort : r.log2 < 24 := (Nat.log2_lt hpos.ne').mpr hlt
    have hshift : (((r.log2 + t - 23 : Nat) : Int) - 149 - (t - 149)).toNat = 0 := by omega
    refine ⟨r, t - 149, hpos, ⟨by omega, hlt, by omega⟩, ?_, ?_, ?_⟩
    · have hplace : ((t : Int) - 149 + 149).toNat = t := by omega
      rw [units, hplace]
    · rw [hshift]
      rfl
    · rw [hshift]
      omega

/-- Shifting up by what is missing, and down by what is left over, moves the last place to `t`. -/
theorem mul_two_pow_eq (k a t : Nat) : k * 2 ^ a = k * 2 ^ (a - t) * 2 ^ min a t := by
  rw [Nat.mul_assoc, ← Nat.pow_add]
  congr 2
  omega

/-- A number is rounded to its 24 places, and once more where that takes one more place. -/
theorem round_eq (h : 0 < m) (a : Nat) {t m' : Nat} {e' : Int} (ht : t = lastPlace (m * 2 ^ a)) (hpos : 0 < m')
    (hmantissa : (shiftToTargetExponent .binary32 (nearest (m * 2 ^ (a - t)) (t - a)) (t - 149) .exact).1.mantissa = m')
    (hexponent : (shiftToTargetExponent .binary32 (nearest (m * 2 ^ (a - t)) (t - a)) (t - 149) .exact).2 = e') :
    UnpackedFloat.round .binary32 .positive m (a - 149) = .finite .positive m' e' hpos := by
  have hm : m * 2 ^ (a - t) ≠ 0 := Nat.mul_ne_zero h.ne' (Nat.two_pow_pos _).ne'
  have hup : (a - 149 - (t - 149) : Int).toNat = a - t := by omega
  have hplace : (a : Int) - 149 - (a - t : Nat) = (min a t : Nat) - 149 := by omega
  have hfirst : shiftToTargetExponent .binary32 (m * 2 ^ (a - t)) ((min a t : Nat) - 149) .exact =
      ((t - a).repeat ExtendedMantissa.shiftRightOne ⟨m * 2 ^ (a - t), false, false⟩, (t : Int) - 149) := by
    have hdown : ((t : Int) - 149 - ((min a t : Nat) - 149)).toNat = t - a := by omega
    rw [shiftToTargetExponent, targetExponent_eq hm, ← mul_two_pow_eq, ← ht, shiftToExponent, hdown]
    exact Prod.ext rfl (by simp only; omega)
  subst hmantissa hexponent
  rw [UnpackedFloat.round, targetExponent_eq h.ne', ← ht]
  simp only [decreaseExponent, hup, hplace, Nat.shiftLeft_eq, roundWithAccuracy, hfirst]
  exact dif_neg hpos.ne'

/-- A number in normal form to which `u` is rounded: no multiple of the last place of `u` is passed. -/
structure Rounded (u m : Nat) (e : Int) : Prop where
  normal : Normal m e
  exists_place : ∃ r t, units m e = r * 2 ^ t ∧ (t = 0 ∨ 2 ^ (t + 23) ≤ u) ∧
    (∀ k, k * 2 ^ t ≤ u → k ≤ r) ∧ ∀ k, u ≤ k * 2 ^ t → r ≤ k

theorem exists_rounded (h : 0 < m) (a : Nat) :
    ∃ m' e' h', UnpackedFloat.round .binary32 .positive m (a - 149) = .finite .positive m' e' h' ∧
      Rounded (m * 2 ^ a) m' e' := by
  obtain ⟨t, ht⟩ : ∃ t, t = lastPlace (m * 2 ^ a) := ⟨_, rfl⟩
  have hu : m * 2 ^ a ≠ 0 := Nat.mul_ne_zero h.ne' (Nat.two_pow_pos a).ne'
  -- Only one of the two shifts moves anything: up by `a - t` or down by `t - a`.
  have hmultiple (k : Nat) : k * 2 ^ t = k * 2 ^ (t - a) * 2 ^ min a t := Nat.min_comm a t ▸ mul_two_pow_eq k t a
  have hfloor (k : Nat) (hk : k * 2 ^ t ≤ m * 2 ^ a) : k ≤ nearest (m * 2 ^ (a - t)) (t - a) := by
    rw [hmultiple, mul_two_pow_eq m a t] at hk
    exact le_nearest (Nat.le_of_mul_le_mul_right hk (Nat.two_pow_pos _))
  have hceil (k : Nat) (hk : m * 2 ^ a ≤ k * 2 ^ t) : nearest (m * 2 ^ (a - t)) (t - a) ≤ k := by
    rw [hmultiple, mul_two_pow_eq m a t] at hk
    exact nearest_le (Nat.le_of_mul_le_mul_right hk (Nat.two_pow_pos _))
  have hfull : t = 0 ∨ 2 ^ (t + 23) ≤ m * 2 ^ a := by
    rw [← Nat.le_log2 hu, ht, lastPlace]
    omega
  have hlt : m * 2 ^ a < 2 ^ 24 * 2 ^ t := by
    rw [← Nat.pow_add, ← Nat.log2_lt hu, ht, lastPlace]
    omega
  have hsome : 1 * 2 ^ t ≤ m * 2 ^ a := by
    rcases hfull with hzero | hle
    · rw [hzero]
      exact Nat.pos_of_ne_zero hu
    · rw [Nat.one_mul]
      exact Nat.le_trans (Nat.pow_le_pow_right (by decide) (Nat.le_add_right t 23)) hle
  have hplaces : t = 0 ∨ 2 ^ 23 ≤ nearest (m * 2 ^ (a - t)) (t - a) := by
    refine hfull.imp_right fun hle => hfloor _ ?_
    rwa [← Nat.pow_add, Nat.add_comm]
  obtain ⟨m', e', hpos, hnormal, hunits, hmantissa, hexponent⟩ :=
    exists_normal (hceil _ hlt.le) (hfloor 1 hsome) hplaces
  exact ⟨m', e', hpos, round_eq h a ht hpos hmantissa hexponent, hnormal, _, t, hunits, hfull, hfloor, hceil⟩

/-! ## Whole numbers -/

variable {u n : Nat}

theorem whole_eq_mul {t : Nat} (ht : t ≤ 149) (n : Nat) : whole n = n * 2 ^ (149 - t) * 2 ^ t := by
  rw [whole, Nat.mul_assoc, ← Nat.pow_add, Nat.sub_add_cancel ht]

theorem whole_le_whole {k : Nat} : whole n ≤ whole k ↔ n ≤ k := Nat.mul_le_mul_right_iff (Nat.two_pow_pos _)

/-- A whole number that a number is not below, it is not rounded below: either it is a multiple of the last place,
or the 24 places are of numbers that are greater than all of these. -/
theorem Rounded.whole_le (h : Rounded u m e) (hn : n ≤ 2 ^ 24) (hle : whole n ≤ u) : whole n ≤ units m e := by
  obtain ⟨r, t, hunits, hfull, hfloor, -⟩ := h.exists_place
  rw [hunits]
  rcases Nat.lt_or_ge 149 t with ht | ht
  · have htop : 2 ^ 23 ≤ r := hfloor _ (by
      rw [← Nat.pow_add, Nat.add_comm]
      exact hfull.resolve_left (by omega))
    calc whole n ≤ 2 ^ 24 * 2 ^ 149 := Nat.mul_le_mul_right _ hn
      _ = 2 ^ 23 * 2 ^ 150 := by rw [← Nat.pow_add, ← Nat.pow_add]
      _ ≤ r * 2 ^ t := Nat.mul_le_mul htop (Nat.pow_le_pow_right (by decide) ht)
  · rw [whole_eq_mul ht] at hle ⊢
    exact Nat.mul_le_mul_right _ (hfloor _ hle)

/-- Nor is it rounded above one that it is not above. -/
theorem Rounded.le_whole (h : Rounded u m e) (hn : n ≤ 2 ^ 24) (hle : u ≤ whole n) : units m e ≤ whole n := by
  obtain ⟨r, t, hunits, hfull, -, hceil⟩ := h.exists_place
  rw [hunits]
  rcases Nat.lt_or_ge 149 t with ht | ht
  · have htop : 2 ^ (t + 23) ≤ u := hfull.resolve_left (by omega)
    have hmost : whole n ≤ 2 ^ (149 + 24) := by
      rw [Nat.add_comm, Nat.pow_add]
      exact Nat.mul_le_mul_right _ hn
    have hplace : t = 150 := by
      have := (Nat.pow_le_pow_iff_right (by decide)).mp (Nat.le_trans htop (Nat.le_trans hle hmost))
      omega
    subst hplace
    have hr : r ≤ 2 ^ 23 := hceil _ (Nat.le_trans hle hmost)
    calc r * 2 ^ 150 ≤ 2 ^ 23 * 2 ^ 150 := Nat.mul_le_mul_right _ hr
      _ ≤ whole n := Nat.le_trans htop hle
  · rw [whole_eq_mul ht] at hle ⊢
    exact Nat.mul_le_mul_right _ (hceil _ hle)

/-! ## Numbers -/

/-- Not below so many units. -/
inductive AtLeast (u : Nat) : UnpackedFloat → Prop where
  | infinity : AtLeast u (.infinity .positive)
  | zero (s : Sign) (hle : u = 0) : AtLeast u (.zero s)
  | finite {m : Nat} {e : Int} {h : 0 < m} (hn : Normal m e) (hle : u ≤ units m e) :
    AtLeast u (.finite .positive m e h)

theorem AtLeast.mono {u v : Nat} {x : UnpackedFloat} (h : AtLeast u x) (hle : v ≤ u) : AtLeast v x := by
  cases h with
  | infinity => exact .infinity
  | zero s hzero => exact .zero s (Nat.le_zero.mp (hzero ▸ hle))
  | finite hn hu => exact .finite hn (Nat.le_trans hle hu)

/-- Not above so many units, and not negative. -/
inductive AtMost (u : Nat) : UnpackedFloat → Prop where
  | zero (s : Sign) : AtMost u (.zero s)
  | finite {m : Nat} {e : Int} {h : 0 < m} (hn : Normal m e) (hle : units m e ≤ u) :
    AtMost u (.finite .positive m e h)

/-- The first of the 24 places is not packed, as it is always set. -/
theorem toNat_one_append (v : BitVec 23) : (1#1 ++ v).toNat = 2 ^ 23 + v.toNat := by
  rw [BitVec.toNat_append, ← Nat.shiftLeft_add_eq_or_of_lt v.isLt, Nat.shiftLeft_eq]
  rfl

/-- Every number is in normal form when it is unpacked. -/
theorem normal_of_unpack {b : BitVec 32} {s : Sign} {h : 0 < m} (hb : unpack .binary32 b = .finite s m e h) :
    Normal m e := by
  have hbias : Format.binary32.exponentBias = 127 := rfl
  have hlt : (@UnpackedFloat.unpackMantissa .binary32 b).toNat < 2 ^ 23 := BitVec.isLt _
  simp only [unpack] at hb
  split at hb
  · split at hb <;> cases hb
  · split at hb
    next hzero =>
      split at hb
      · cases hb
      · injection hb with _ hm he
        rw [hzero, hbias] at he
        have he : e = -149 := by rw [← he]; rfl
        exact ⟨he.ge, hm ▸ Nat.lt_trans hlt (by decide), .inl he⟩
    next hnonzero =>
      injection hb with _ hm he
      have hpos : 0 < (@UnpackedFloat.unpackExponent .binary32 b).toNat :=
        Nat.pos_of_ne_zero fun hz => hnonzero (BitVec.eq_of_toNat_eq hz)
      rw [toNat_one_append] at hm
      rw [hbias] at he
      exact ⟨by omega, by omega, .inr (by omega)⟩

theorem float32_le_iff {x y : Float32} :
    x ≤ y ↔ (x.toModel.unpack.compare y.toModel.unpack).any (·.isLE) = true := decide_eq_true_iff

theorem units_pos (h : 0 < m) (e : Int) : 0 < units m e := Nat.mul_pos h (Nat.two_pow_pos _)

/-- What is not above a number that is at most `u` is not above one that is at least `u`. -/
theorem le_of_atMost_of_atLeast {x y z : Float32} (hxy : x ≤ y) (hy : AtMost u y.toModel.unpack)
    (hz : AtLeast u z.toModel.unpack) : x ≤ z := by
  rw [float32_le_iff] at hxy ⊢
  cases hx : x.toModel.unpack with
  | notANumber => simp [hx, UnpackedFloat.compare] at hxy
  | infinity s =>
    rw [hx] at hxy
    generalize y.toModel.unpack = y' at hxy hy
    generalize z.toModel.unpack = z' at hz ⊢
    cases s with
    | negative => cases hz <;> rfl
    | positive => cases hy <;> cases hxy
  | zero s =>
    generalize z.toModel.unpack = z' at hz ⊢
    cases hz <;> rfl
  | finite s m e h =>
    have hnormal := normal_of_unpack hx
    rw [hx] at hxy
    generalize y.toModel.unpack = y' at hxy hy
    generalize z.toModel.unpack = z' at hz ⊢
    cases s with
    | negative => cases hz <;> rfl
    | positive =>
      cases hy with
      | zero => cases hxy
      | finite hny hley =>
        have hle := Nat.le_trans ((isLE_then_iff hnormal hny).mp hxy) hley
        cases hz with
        | infinity => rfl
        | zero _ hu => exact absurd (units_pos h e) (by omega)
        | finite hnz hlez => exact (isLE_then_iff hnormal hnz).mpr (Nat.le_trans hle hlez)

/-! ## Adding one -/

/-- A number of 24 places is packed as it is, or as infinity if it is too great. -/
theorem unpack_pack (hn : Normal m e) (hfull : 2 ^ 23 ≤ m) (h : 0 < m) :
    unpack .binary32 (pack .binary32 (.finite .positive m e h)) =
      if e < 105 then .finite .positive m e h else .infinity .positive := by
  have hlog : m.log2 = 23 := (Nat.log2_eq_iff h.ne').mpr ⟨hfull, hn.lt⟩
  have hlow := hn.lowest
  have hlt := hn.lt
  obtain ⟨biased, hbiased⟩ : ∃ biased, biased = (e + (127 : Nat) + (23 : Nat)).toNat := ⟨_, rfl⟩
  have hbias : Format.binary32.exponentBias = 127 := rfl
  simp only [pack, hbias, ← hbiased]
  by_cases he : e < 105
  · have hmax : BitVec.ofNat 8 biased ≠ -1#_ := fun h => by
      have hsame : biased % 256 = 255 := congrArg BitVec.toNat h
      omega
    have hzero : BitVec.ofNat 8 biased ≠ 0#_ := fun h => by
      have hsame : biased % 256 = 0 := congrArg BitVec.toNat h
      omega
    have hplaces : (1#1 ++ BitVec.ofNat 23 m).toNat = m := by
      rw [toNat_one_append, BitVec.toNat_ofNat]
      omega
    rw [if_neg (by omega), if_pos (by rw [hlog]; rfl), if_pos he]
    simp only [unpack, unpackMantissa_packComponents, unpackExponent_packComponents, unpackSign_packComponents, hmax,
      hzero, if_false, hplaces, hbias]
    have hexponent : ((BitVec.ofNat 8 biased).toNat : Int) - (127 + 23) = e := by
      rw [BitVec.toNat_ofNat]
      omega
    exact congrArg (UnpackedFloat.finite .positive m · h) hexponent
  · rw [if_pos (by omega), if_neg he]
    rfl

/-- A mantissa that is written with a lower exponent stands for the same number. -/
theorem decreaseExponent_units {t : Int} (ht : -149 ≤ t) (hle : t ≤ e) :
    (decreaseExponent m e t).1 * 2 ^ (t + 149).toNat = units m e := by
  rw [decreaseExponent, Nat.shiftLeft_eq, Nat.mul_assoc, ← Nat.pow_add, units]
  congr 2
  omega

theorem normalize_of_pos (h : 0 < m) (e : Int) (s : Sign) :
    UnpackedFloat.normalize .binary32 (m : Int) e s = .round .binary32 .positive m e := by
  rw [UnpackedFloat.normalize, Int.compare_eq_gt.mpr (Int.natCast_pos.mpr h)]
  rfl

/-- The sum of two positive numbers is rounded. -/
theorem exists_add (h₁ : 0 < m₁) (h₂ : 0 < m₂) (hn₁ : Normal m₁ e₁) (hn₂ : Normal m₂ e₂) :
    ∃ m e h, UnpackedFloat.add .binary32 (.finite .positive m₁ e₁ h₁) (.finite .positive m₂ e₂ h₂) =
      .finite .positive m e h ∧ Rounded (units m₁ e₁ + units m₂ e₂) m e := by
  have hlow : -149 ≤ min e₁ e₂ := le_min hn₁.lowest hn₂.lowest
  have hsum₁ := decreaseExponent_units (m := m₁) hlow (min_le_left e₁ e₂)
  have hsum₂ := decreaseExponent_units (m := m₂) hlow (min_le_right e₁ e₂)
  obtain ⟨a, ha⟩ : ∃ a : Nat, min e₁ e₂ = a - 149 := ⟨(min e₁ e₂ + 149).toNat, by omega⟩
  have hplace : (min e₁ e₂ + 149).toNat = a := by omega
  rw [hplace] at hsum₁ hsum₂
  have hpos : 0 < (decreaseExponent m₁ e₁ (min e₁ e₂)).1 + (decreaseExponent m₂ e₂ (min e₁ e₂)).1 := by
    have hunits := units_pos h₁ e₁
    rw [← hsum₁] at hunits
    exact Nat.lt_of_lt_of_le (Nat.pos_of_mul_pos_right hunits) (Nat.le_add_right ..)
  obtain ⟨m, e, h, hround, hrounded⟩ := exists_rounded hpos a
  rw [Nat.add_mul, hsum₁, hsum₂] at hrounded
  refine ⟨m, e, h, ?_, hrounded⟩
  simp only [UnpackedFloat.add, Sign.apply]
  rw [← Int.natCast_add, normalize_of_pos hpos, ← hround, ha]

theorem unpack_zero : (0 : Float32).toModel.unpack = .zero .positive := rfl

/-- One, in normal form. -/
theorem unpack_one : (1 : Float32).toModel.unpack = .finite .positive (2 ^ 23) (-23) (by decide) := rfl

theorem normal_one : Normal (2 ^ 23) (-23) := ⟨by decide, by decide, .inr (Nat.le_refl _)⟩

theorem units_one : units (2 ^ 23) (-23) = whole 1 := by decide

theorem unpack_add_one (x : Float32) : (x + 1).toModel.unpack =
    unpack .binary32 (pack .binary32 (.add .binary32 x.toModel.unpack (1 : Float32).toModel.unpack)) := rfl

theorem unpack_zero_add_one (s : Sign) :
    unpack .binary32 (pack .binary32 (.add .binary32 (.zero s) (.finite .positive (2 ^ 23) (-23) (by decide)))) =
      .finite .positive (2 ^ 23) (-23) (by decide) := by
  have hadd : UnpackedFloat.add .binary32 (.zero s) (.finite .positive (2 ^ 23) (-23) (by decide)) =
      .finite .positive (2 ^ 23) (-23) (by decide) := rfl
  rw [hadd, unpack_pack normal_one (Nat.le_refl _), if_pos (by decide)]

/-- A number that is not below one has 24 places. -/
theorem Normal.full_of_whole_le (hn : Normal m e) (h : whole 1 ≤ units m e) : 2 ^ 23 ≤ m := by
  refine hn.full.resolve_left fun he => ?_
  have hlt := hn.lt
  rw [he, units, whole, Nat.one_mul, show ((-149 : Int) + 149).toNat = 0 from rfl, Nat.pow_zero, Nat.mul_one] at h
  exact absurd (Nat.le_trans h hlt.le) (by decide)

/-- As long as it is below `2 ^ 24`, a whole number that is reached is passed on when one is added. -/
theorem atLeast_add_one {x : Float32} (hn : n < 2 ^ 24) (h : AtLeast (whole n) x.toModel.unpack) :
    AtLeast (whole (n + 1)) (x + 1).toModel.unpack := by
  rw [unpack_add_one, unpack_one]
  generalize x.toModel.unpack = x' at h
  cases h with
  | infinity => exact .infinity
  | zero s hzero =>
    have hn : n = 0 := (Nat.mul_eq_zero.mp hzero).resolve_right (Nat.two_pow_pos _).ne'
    subst hn
    rw [unpack_zero_add_one]
    exact .finite normal_one units_one.ge
  | @finite m e hpos hnormal hle =>
    obtain ⟨m', e', h', hadd, hrounded⟩ := exists_add hpos (by decide) hnormal normal_one
    have hwhole : whole (n + 1) ≤ units m e + units (2 ^ 23) (-23) := by
      rw [units_one, whole, Nat.add_mul]
      exact Nat.add_le_add_right hle _
    have hresult := hrounded.whole_le hn hwhole
    have hfull := hrounded.normal.full_of_whole_le (Nat.le_trans (whole_le_whole.mpr (Nat.le_add_left 1 n)) hresult)
    rw [hadd, unpack_pack hrounded.normal hfull]
    split
    · exact .finite hrounded.normal hresult
    · exact .infinity

theorem units_eq_whole (he : 0 ≤ e) (m : Nat) : units m e = whole (m * 2 ^ e.toNat) := by
  rw [units, whole, Nat.mul_assoc, ← Nat.pow_add]
  congr 2
  omega

/-- The number `2 ^ 24`, in normal form. -/
theorem unpack_top : (16777216 : Float32).toModel.unpack = .finite .positive (2 ^ 23) 1 (by decide) := rfl

theorem normal_top : Normal (2 ^ 23) 1 := ⟨by decide, by decide, .inr (Nat.le_refl _)⟩

theorem units_top : units (2 ^ 23) 1 = whole (2 ^ 24) := by decide

theorem atLeast_top : AtLeast (whole (2 ^ 24)) (16777216 : Float32).toModel.unpack :=
  unpack_top ▸ .finite normal_top units_top.ge

theorem atMost_top : AtMost (whole (2 ^ 24)) (16777216 : Float32).toModel.unpack :=
  unpack_top ▸ .finite normal_top units_top.le

/-- Below `2 ^ 24`, a number without places behind the point is at most the whole number before that. -/
theorem Normal.eq_of_whole_lt (hn : Normal m e) (hlt : whole (2 ^ 24 - 1) < units m e)
    (hle : units m e ≤ whole (2 ^ 24)) : m = 2 ^ 23 ∧ e = 1 := by
  have hm := hn.lt
  have hnonneg : 0 ≤ e := by
    refine Int.not_lt.mp fun hneg => ?_
    have hplace : (e + 149).toNat ≤ 148 := by omega
    refine absurd hlt (Nat.not_lt.mpr ?_)
    calc units m e ≤ 2 ^ 24 * 2 ^ 148 := Nat.mul_le_mul hm.le (Nat.pow_le_pow_right (by decide) hplace)
      _ = whole (2 ^ 23) := by rw [whole, ← Nat.pow_add, ← Nat.pow_add]
      _ ≤ whole (2 ^ 24 - 1) := whole_le_whole.mpr (by decide)
  have hfull := hn.full.resolve_left (by omega)
  rw [units_eq_whole hnonneg] at hlt hle
  have hle := whole_le_whole.mp hle
  have hlt := Nat.lt_of_not_le (mt whole_le_whole.mpr (Nat.not_le.mpr hlt))
  have heq : m * 2 ^ e.toNat = 2 ^ 24 := by omega
  match hd : e.toNat, heq with
  | 0, heq => omega
  | 1, heq => omega
  | d + 2, heq =>
    have hfour : m * 2 ^ 2 ≤ m * 2 ^ (d + 2) :=
      Nat.mul_le_mul_left m (Nat.pow_le_pow_right (by decide) (Nat.le_add_left 2 d))
    omega

/-- What is at most `2 ^ 24` is so when one is added. -/
theorem atMost_add_one {x : Float32} (h : AtMost (whole (2 ^ 24)) x.toModel.unpack) :
    AtMost (whole (2 ^ 24)) (x + 1).toModel.unpack := by
  rw [unpack_add_one, unpack_one]
  generalize x.toModel.unpack = x' at h
  cases h with
  | zero s =>
    rw [unpack_zero_add_one]
    exact .finite normal_one (units_one ▸ whole_le_whole.mpr (by decide))
  | @finite m e hpos hnormal hle =>
    rcases Nat.lt_or_ge (whole (2 ^ 24 - 1)) (units m e) with hlt | hge
    · -- There is only `2 ^ 24` itself. One more is half-way to the next number, and goes back to the even one.
      obtain ⟨rfl, rfl⟩ := hnormal.eq_of_whole_lt hlt hle
      have hadd : UnpackedFloat.add .binary32 (.finite .positive (2 ^ 23) 1 hpos)
          (.finite .positive (2 ^ 23) (-23) (by decide)) = .finite .positive (2 ^ 23) 1 hpos := rfl
      rw [hadd, unpack_pack hnormal (Nat.le_refl _), if_pos (by decide)]
      exact .finite hnormal hle
    · obtain ⟨m', e', h', hadd, hrounded⟩ := exists_add hpos (by decide) hnormal normal_one
      have hwhole : units m e + units (2 ^ 23) (-23) ≤ whole (2 ^ 24) := by
        rw [units_one]
        exact Nat.add_le_add_right hge _
      have hresult := hrounded.le_whole (Nat.le_refl _) hwhole
      have hfull := hrounded.normal.full_of_whole_le (hrounded.whole_le (by decide) (units_one ▸ Nat.le_add_left ..))
      have hexponent : e' ≤ 1 := by
        refine Int.not_lt.mp fun hgt => ?_
        exact absurd hresult (Nat.not_le.mpr (units_top ▸ units_lt_of_exponent_lt normal_top hrounded.normal hgt))
      rw [hadd, unpack_pack hrounded.normal hfull, if_pos (by omega)]
      exact .finite hrounded.normal hresult

/-! ## Taking away -/

/-- What is packed with a positive sign, and is not packed as infinity, is not negative. -/
theorem atLeast_zero_unpack {exponent : BitVec 8} (h : exponent ≠ -1#8) (mantissa : BitVec 23) :
    AtLeast 0 (unpack .binary32 (packComponents .binary32 .positive exponent mantissa)) := by
  have hsign : Sign.ofBitVec Sign.positive.toBitVec = .positive := rfl
  cases hb : unpack .binary32 (packComponents .binary32 .positive exponent mantissa) with
  | zero s => exact .zero s rfl
  | finite s m e hpos =>
    have hnormal := normal_of_unpack hb
    simp only [unpack, unpackMantissa_packComponents, unpackExponent_packComponents, unpackSign_packComponents,
      h, if_false, hsign] at hb
    split at hb
    · split at hb
      · cases hb
      · cases hb
        exact .finite hnormal (Nat.zero_le _)
    · cases hb
      exact .finite hnormal (Nat.zero_le _)
  | infinity s | notANumber =>
    simp only [unpack, unpackMantissa_packComponents, unpackExponent_packComponents, unpackSign_packComponents,
      h, if_false, hsign] at hb
    split at hb
    · split at hb <;> cases hb
    · cases hb

theorem atLeast_zero_unpack_pack (h : 0 < m) (e : Int) :
    AtLeast 0 (unpack .binary32 (pack .binary32 (.finite .positive m e h))) := by
  simp only [pack]
  split
  · exact .infinity
  next hsmall =>
    split
    · refine atLeast_zero_unpack (fun hmax => hsmall ?_) _
      have hsame : _ % 256 = 255 := congrArg BitVec.toNat hmax
      omega
    · exact atLeast_zero_unpack (by decide) _

/-- A difference that is not below zero is not negative when it is rounded and packed. -/
theorem atLeast_zero_normalize (k : Nat) (e : Int) :
    AtLeast 0 (unpack .binary32 (pack .binary32 (.normalize .binary32 (k : Int) e .positive))) := by
  rcases Nat.eq_zero_or_pos k with hzero | hpos
  · have hnone : UnpackedFloat.normalize .binary32 ((0 : Nat) : Int) e .positive = .zero .positive := rfl
    rw [hzero, hnone]
    exact .zero .positive rfl
  · rw [normalize_of_pos hpos]
    unfold UnpackedFloat.round roundWithAccuracy
    dsimp only
    split
    · exact .zero .positive rfl
    · exact atLeast_zero_unpack_pack _ _

/-- The difference of a number and one that it is not below is not negative. -/
theorem atLeast_sub {x y : Float32} (hxy : x ≤ y) (hx : x ≤ 16777216) (hy : AtLeast (whole 1) y.toModel.unpack) :
    AtLeast 0 (y - x).toModel.unpack := by
  have hsub : (y - x).toModel.unpack =
    unpack .binary32 (pack .binary32 (.sub .binary32 y.toModel.unpack x.toModel.unpack)) := rfl
  have hinfinity : AtLeast 0 (unpack .binary32 (pack .binary32 (.infinity .positive))) := .infinity
  rw [float32_le_iff] at hxy hx
  rw [hsub]
  cases hx' : x.toModel.unpack with
  | notANumber => simp [hx', UnpackedFloat.compare] at hx
  | infinity s =>
    cases s with
    | positive => rw [hx', unpack_top] at hx; cases hx
    | negative =>
      generalize y.toModel.unpack = y' at hy
      cases hy with
      | infinity | finite => exact hinfinity
      | zero _ hzero => exact absurd hzero (by decide)
  | zero s =>
    generalize y.toModel.unpack = y' at hy
    cases hy with
    | infinity => exact hinfinity
    | finite => exact atLeast_zero_unpack_pack _ _
    | zero _ hzero => exact absurd hzero (by decide)
  | finite s m e h =>
    have hnormal := normal_of_unpack hx'
    rw [hx'] at hxy
    generalize y.toModel.unpack = y' at hy hxy
    cases hy with
    | infinity => exact hinfinity
    | zero _ hzero => exact absurd hzero (by decide)
    | @finite my ey hpos hny hley =>
      -- Both are written with the lower exponent of the two, so that the mantissas are subtracted.
      have hlow : -149 ≤ min ey e := le_min hny.lowest hnormal.lowest
      have hunitsY := decreaseExponent_units (m := my) hlow (min_le_left ey e)
      have hunitsX := decreaseExponent_units (m := m) hlow (min_le_right ey e)
      simp only [UnpackedFloat.sub]
      generalize (decreaseExponent my ey (min ey e)).1 = ky at hunitsY ⊢
      generalize (decreaseExponent m e (min ey e)).1 = kx at hunitsX ⊢
      cases s with
      | negative =>
        have hsum : Sign.positive.apply (ky : Int) - Sign.negative.apply (kx : Int) = (ky + kx : Nat) := by
          simp only [Sign.apply]
          omega
        rw [hsum]
        exact atLeast_zero_normalize _ _
      | positive =>
        have hle : kx ≤ ky := by
          have hunits := (isLE_then_iff hnormal hny).mp hxy
          rw [← hunitsX, ← hunitsY] at hunits
          exact Nat.le_of_mul_le_mul_right hunits (Nat.two_pow_pos _)
        have hdifference : Sign.positive.apply (ky : Int) - Sign.positive.apply (kx : Int) = (ky - kx : Nat) := by
          simp only [Sign.apply]
          omega
        rw [hdifference]
        exact atLeast_zero_normalize _ _

end AmstradCpc.SinglePrecision
