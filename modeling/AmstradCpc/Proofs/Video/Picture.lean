/-
What the picture of a frame shows, pixel by pixel. The painter adds pixels to the end of an
array, a run of equal ones at a time; `Draws` says of such a step which places it fills and
by which formula, and goes through one step after another and through loops. So the formula
for the whole picture (`Paintable.inkAt`), which knows nothing of the order of painting, has to
be looked at only where a run is added.
-/
import Mathlib.Data.FinEnum
import Mathlib.Data.Nat.ModEq
import AmstradCpc.Video.Paint

namespace AmstradCpc

/-! ## Drawing -/

/-- The step adds the pixels of the places from `first` to `first + count`, and keeps those that
are there. -/
def Draws {α : Type} (step : Array α → Array α) (first count : Nat) (pixel : Nat → α) : Prop :=
  ∀ out, step out = out ++ (Array.range' first count).map pixel

namespace Draws

variable {α : Type} {step next : Array α → Array α} {first count more : Nat} {pixel : Nat → α}

theorem nothing : Draws id first 0 pixel := by
  intro out
  simp

theorem one : Draws (·.push (pixel first)) first 1 pixel := by
  intro out
  simp

theorem andThen (h : Draws step first count pixel) (hnext : Draws next (first + count) more pixel) :
    Draws (fun out => next (step out)) first (count + more) pixel := by
  intro out
  show next (step out) = _
  rw [h, hnext, Array.append_assoc, ← Array.map_append]
  simp

/-- A loop each of whose turns fills `width` places. -/
theorem fold (turn : Nat → Array α → Array α) (first width turns : Nat)
    (h : ∀ k < turns, Draws (turn k) (first + k * width) width pixel) :
    Draws (turns.fold fun k _ => turn k) first (turns * width) pixel := by
  induction turns with
  | zero =>
    rw [Nat.zero_mul]
    exact nothing
  | succ turns ih =>
    have before := ih fun k hk => h k (Nat.lt_succ_of_lt hk)
    have last := h turns (Nat.lt_succ_self turns)
    intro out
    rw [Nat.fold_succ, Nat.succ_mul]
    exact before.andThen last out

end Draws

namespace PixelByte

theorem width_pos (mode : UInt8) : 0 < width mode := by
  unfold width count
  split <;> decide

end PixelByte

namespace Scanline

variable {line : Scanline} {shown : UInt8 → UInt32} {first : Nat} {pixel : Nat → UInt32}

end Scanline

/-! ## Palettes -/

namespace Frame

/-- The frame has no more lines than there is room for, and the vertical sync was on one of them;
and the memory has the banks that a picture is made of. -/
structure Paintable (f : Frame) (m : Memory) : Prop where
  lines_pos : 0 < f.lines
  lines_le : f.lines ≤ 312
  vsyncLine_lt : f.vsyncLine < f.lines
  banks : 4 ≤ m.ram.size

/-- The colours of a row of the picture. -/
def colours (f : Frame) (y : Nat) : Vector UInt32 32 := if y % 2 = 0 then f.palette.bright else f.palette.dim

namespace Paintable

variable {f : Frame} {m : Memory}

/-- The record that is shown `v` lines below the upper edge of the picture. -/
def place (h : Paintable f m) (v : Nat) : Fin 312 :=
  ⟨(f.vsyncLine + 28 + v) % f.lines, Nat.lt_of_lt_of_le (Nat.mod_lt _ h.lines_pos) h.lines_le⟩

def line (h : Paintable f m) (v : Nat) : Scanline := f.record.get (h.place v)

theorem paintedLines_eq (h : Paintable f m) : f.paintedLines = min 288 f.lines := by
  have hpos := h.lines_pos
  have hle := h.lines_le
  simp only [paintedLines, length, show recordedLines = 312 from rfl, show visibleLines = 288 from rfl]
  omega

theorem canNumberLines (h : Paintable f m) : f.canNumberLines = true := by
  have hle := h.lines_le
  have hlt := h.vsyncLine_lt
  rw [Frame.canNumberLines, h.paintedLines_eq, decide_eq_true_eq]
  simp only [show vsyncToVisible = 28 from rfl, show UInt64.size = 2 ^ 64 from rfl]
  omega

end Paintable
end Frame

end AmstradCpc
