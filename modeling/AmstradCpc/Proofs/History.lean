/-
Histories: events that change a state, one after the other. Something that is spoilt by events
of one kind and mended by events of another is whole at the end exactly if there was no event of
the first kind, or one of the second kind after the last of them. `MarkedSince` says the
contrary of a history, and `holds_iff_not_markedSince` derives it from what a single event does.
Which kind an event is of may depend on the state that it finds.
-/
import Mathlib.Data.List.Induction

namespace AmstradCpc

/-- The last of several events, and where in a history it may stand. -/
theorem concat_eq_append_cons_iff {ε : Type} {events before after : List ε} {last event : ε} :
    events ++ [last] = before ++ event :: after ↔
      (events = before ∧ last = event ∧ after = []) ∨
        ∃ after', after = after' ++ [last] ∧ events = before ++ event :: after' := by
  constructor
  · intro h
    rcases List.eq_nil_or_concat after with rfl | ⟨after', last', rfl⟩
    · obtain ⟨rfl, hlast⟩ := List.append_inj' h rfl
      exact .inl ⟨rfl, by simpa using hlast, rfl⟩
    · rw [List.concat_eq_append, ← List.cons_append, ← List.append_assoc] at h
      obtain ⟨rfl, hlast⟩ := List.append_inj' h rfl
      obtain rfl : last = last' := by simpa using hlast
      exact .inr ⟨after', List.concat_eq_append, rfl⟩
  · rintro (⟨rfl, rfl, rfl⟩ | ⟨after', rfl, rfl⟩)
    · rfl
    · simp

variable {σ ε : Type} {step : σ → ε → σ} {mark clear : σ → ε → Prop} {s : σ}

/-- An event was marked, and none after it cleared. -/
def MarkedSince (step : σ → ε → σ) (mark clear : σ → ε → Prop) (s : σ) (events : List ε) : Prop :=
  ∃ before event after, events = before ++ event :: after ∧ mark (before.foldl step s) event ∧
    ∀ between other rest, after = between ++ other :: rest →
      ¬clear ((before ++ event :: between).foldl step s) other

theorem not_markedSince_nil : ¬MarkedSince step mark clear s [] := by
  rintro ⟨before, event, after, h, -⟩
  simp at h

theorem markedSince_concat {events : List ε} {last : ε} :
    MarkedSince step mark clear s (events ++ [last]) ↔
      mark (events.foldl step s) last ∨
        ¬clear (events.foldl step s) last ∧ MarkedSince step mark clear s events := by
  constructor
  · rintro ⟨before, event, after, h, hmark, hafter⟩
    rcases concat_eq_append_cons_iff.1 h with ⟨rfl, rfl, rfl⟩ | ⟨after, rfl, rfl⟩
    · exact .inl hmark
    · refine .inr ⟨hafter after last [] rfl, before, event, after, rfl, hmark, ?_⟩
      rintro between other rest rfl
      exact hafter between other (rest ++ [last]) (by simp)
  · rintro (hmark | ⟨hclear, before, event, after, rfl, hmark, hafter⟩)
    · exact ⟨events, last, [], rfl, hmark, by simp⟩
    · refine ⟨before, event, after ++ [last], by simp, hmark, fun between other rest h => ?_⟩
      rcases concat_eq_append_cons_iff.1 h with ⟨rfl, rfl, rfl⟩ | ⟨rest, rfl, rfl⟩
      · exact hclear
      · exact hafter between other rest rfl

/-- A property that a marked event spoils, a clearing one mends and any other leaves as it is. The
step may rely on an invariant `I`. -/
theorem holds_iff_not_markedSince {I P : σ → Prop}
    (hinv : ∀ s e, I s → I (step s e))
    (hstep : ∀ s e, I s → (P (step s e) ↔ ¬mark s e ∧ (clear s e ∨ P s)))
    (hs : I s) (hP : P s) (events : List ε) :
    I (events.foldl step s) ∧ (P (events.foldl step s) ↔ ¬MarkedSince step mark clear s events) := by
  induction events using List.reverseRecOn with
  | nil => exact ⟨hs, iff_of_true hP not_markedSince_nil⟩
  | append_singleton events last ih =>
    obtain ⟨ihinv, ih⟩ := ih
    rw [List.foldl_append, List.foldl_cons, List.foldl_nil, markedSince_concat]
    refine ⟨hinv _ _ ihinv, (hstep _ _ ihinv).trans ?_⟩
    rw [ih, not_or, not_and_or, not_not]

end AmstradCpc
