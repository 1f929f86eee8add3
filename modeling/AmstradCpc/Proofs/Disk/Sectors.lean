/-
What writing to a sector changes for one who asks for sectors. The sector that answers
is the one that is written to, and it still answers; any other record of the same
cylinder number is answered for as before. A sector that is not there cannot be asked
for either, so a write fails only where reading would.
-/
import AmstradCpc.Proofs.Disk.Order

namespace AmstradCpc.Disk

namespace Image

/-- A change of the items that are looked for reaches the first of them. -/
theorem modifyFirst?_of_find? {α : Type} {f : α → Option α} {p : α → Bool}
    (hother : ∀ b, p b = false → f b = none) {a a' : α} (ha : f a = some a') (hp : p a' = true) :
    ∀ {l : List α}, l.find? p = some a →
      ∃ l', modifyFirst? f l = some l' ∧ l'.find? p = some a'
  | b :: rest, hfind => by
    rw [List.find?_cons] at hfind
    cases hb : p b with
    | true =>
      simp only [hb, Option.some.injEq] at hfind
      subst hfind
      exact ⟨a' :: rest, by simp only [modifyFirst?, ha], List.find?_cons_of_pos hp⟩
    | false =>
      simp only [hb] at hfind
      obtain ⟨rest', hrest, hfound⟩ := modifyFirst?_of_find? hother ha hp hfind
      refine ⟨b :: rest', by simp only [modifyFirst?, hother b hb, hrest, Option.map_some], ?_⟩
      rw [List.find?_cons_of_neg (by simp [hb]), hfound]

/-- A change of an item that is not among those picked, before or after, leaves these as they are. -/
theorem filter_modifyFirst?_other {α : Type} {f : α → Option α} {q : α → Bool}
    (hq : ∀ a a', f a = some a' → q a = false ∧ q a' = false) {l l' : List α}
    (h : modifyFirst? f l = some l') : l'.filter q = l.filter q := by
  obtain ⟨before, a, a', after, rfl, -, ha, rfl⟩ := modifyFirst?_eq_some h
  obtain ⟨hqa, hqa'⟩ := hq a a' ha
  rw [List.filter_append, List.filter_append, List.filter_cons_of_neg (by simp [hqa']),
    List.filter_cons_of_neg (by simp [hqa])]

/-- Nor does it change what is found. -/
theorem find?_modifyFirst?_other {α : Type} {f : α → Option α} {q : α → Bool}
    (hq : ∀ a a', f a = some a' → q a = false ∧ q a' = false) {l l' : List α}
    (h : modifyFirst? f l = some l') : l'.find? q = l.find? q := by
  rw [← List.head?_filter, ← List.head?_filter, filter_modifyFirst?_other hq h]

/-- A change that what is looked for, and what is asked of it, do not depend on, is not seen. -/
theorem bind_find?_modifyFirst? {α β : Type} {f : α → Option α} {p : α → Bool} {g : α → Option β}
    (hp : ∀ a a', f a = some a' → p a' = p a)
    (hg : ∀ a a', p a = true → f a = some a' → g a' = g a) {l l' : List α}
    (h : modifyFirst? f l = some l') : (l'.find? p).bind g = (l.find? p).bind g := by
  obtain ⟨before, a, a', after, rfl, -, ha, rfl⟩ := modifyFirst?_eq_some h
  rw [List.find?_append, List.find?_append, List.find?_cons, List.find?_cons, hp a a' ha]
  cases before.find? p with
  | some b => rfl
  | none =>
    cases hpa : p a with
    | true => exact hg a a' hpa ha
    | false => rfl

/-! ## Writing to a sector -/

/-- Whoever asks for another sector, at the same place or elsewhere, is answered as before. -/
theorem sector_writeSector_other {d d' : Image} {cylinder side idCylinder record : UInt8}
    {data : ByteArray} {deleted : Bool}
    (h : d.writeSector cylinder side idCylinder record data deleted = some d') {c s c' r : UInt8}
    (hne : (c, s, c', r) ≠ (cylinder, side, idCylinder, record)) : d'.sector c s c' r = d.sector c s c' r := by
  simp only [writeSector] at h
  obtain ⟨tracks, hm, rfl⟩ := Option.map_eq_some_iff.mp h
  refine bind_find?_modifyFirst? (fun t t' ht => ?_) (fun t t' hlies ht => ?_) hm
  · obtain ⟨-, ht⟩ := Option.ite_none_right_eq_some.mp ht
    obtain ⟨sectors, -, rfl⟩ := Option.map_eq_some_iff.mp ht
    rfl
  · obtain ⟨hl, ht⟩ := Option.ite_none_right_eq_some.mp ht
    obtain ⟨sectors, hsectors, rfl⟩ := Option.map_eq_some_iff.mp ht
    refine find?_modifyFirst?_other (fun a a' ha => ?_) hsectors
    obtain ⟨hans, ha⟩ := Option.ite_none_right_eq_some.mp ha
    cases ha
    -- Writing leaves the ID, so neither the old nor the new sector answers for another one.
    have hno : a.answersTo c' r = false := by
      refine Bool.eq_false_iff.mpr fun hans' => hne ?_
      obtain ⟨rfl, rfl⟩ := Prod.mk.inj ((Track.liesAt_iff.mp hlies).symm.trans (Track.liesAt_iff.mp hl))
      simp only [Sector.answersTo, Bool.and_eq_true, beq_iff_eq] at hans hans'
      rw [← hans'.1, ← hans'.2, hans.1, hans.2]
    exact ⟨hno, hno⟩

/-- Where a sector answers, it is written to; then it answers with what was written,
and all other records of its cylinder number are answered for as before. -/
theorem sector_writeSector {d : Image} {cylinder side idCylinder record : UInt8} {s : Sector}
    (h : d.sector cylinder side idCylinder record = some s) (data : ByteArray) (deleted : Bool) :
    ∃ d', d.writeSector cylinder side idCylinder record data deleted = some d' ∧
      d'.sector cylinder side idCylinder record = some (s.overwrite data deleted) ∧
      ∀ other, other ≠ record →
        d'.sector cylinder side idCylinder other = d.sector cylinder side idCylinder other := by
  obtain ⟨t, ht, hs⟩ := Option.bind_eq_some_iff.mp h
  have hanswers := List.find?_some hs
  have hlies := List.find?_some ht
  let onSector (s : Sector) :=
    if s.answersTo idCylinder record then some (s.overwrite data deleted) else none
  obtain ⟨sectors, hsectors, hfound⟩ :=
    modifyFirst?_of_find? (f := onSector) (p := (·.answersTo idCylinder record))
      (fun b hb => if_neg (by simp [hb])) (if_pos hanswers) hanswers hs
  let onTrack (t : Track) :=
    if t.liesAt cylinder side then
      (modifyFirst? onSector t.sectors).map fun sectors => { t with sectors }
    else none
  have honTrack : onTrack t = some { t with sectors } := by
    simp only [onTrack, hlies, if_true, hsectors, Option.map_some]
  obtain ⟨tracks, htracks, htrack⟩ :=
    modifyFirst?_of_find? (f := onTrack) (p := (·.liesAt cylinder side))
      (fun b hb => if_neg (by simp [hb])) honTrack hlies ht
  have hwritten : ({ d with tracks, dirty := true } : Image).track cylinder side =
      some { t with sectors } := htrack
  have hw : d.writeSector cylinder side idCylinder record data deleted =
      some { d with tracks, dirty := true } := by
    show (modifyFirst? onTrack d.tracks).map _ = _
    rw [htracks, Option.map_some]
  refine ⟨{ d with tracks, dirty := true }, hw, ?_, fun other hne => ?_⟩
  · rw [sector, hwritten]
    exact hfound
  · exact sector_writeSector_other hw fun heq => hne (congrArg (·.2.2.2) heq)

/-- A sector that cannot be written to is not there. -/
theorem sector_of_writeSector_eq_none {d : Image} {cylinder side idCylinder record : UInt8}
    {data : ByteArray} {deleted : Bool}
    (h : d.writeSector cylinder side idCylinder record data deleted = none) :
    d.sector cylinder side idCylinder record = none := by
  cases hs : d.sector cylinder side idCylinder record with
  | none => rfl
  | some s =>
    obtain ⟨d', hw, -⟩ := sector_writeSector hs data deleted
    rw [h] at hw
    cases hw

end Image

end AmstradCpc.Disk
