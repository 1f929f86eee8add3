/-
The pace of frames. The end of each frame is due one period after the end of
the one before, however early or late that was; but a program that falls behind
by more than a second starts anew from the present. Times are in nanoseconds.
-/
import AmstradCpc.Config.Choice

namespace AmstradCpc

structure FrameTimer where
  period : Nat
  /-- Nothing is ever held back. -/
  turbo : Bool
  /-- When the last frame was due. -/
  deadline : Option Nat := none
  deriving DecidableEq, Repr, Inhabited

namespace FrameTimer

def ofRefresh (refresh : Refresh) (turbo : Bool) : FrameTimer :=
  { period := refresh.period * 1000, turbo }

/-- Lateness that is no longer made up for. -/
def maxLag : Nat := 1000000000

/-- The digits of a fraction, given in billionths, without the zeros at its end. -/
def fractionDigits (billionths : Nat) : String :=
  let digits := (toString billionths).toList
  let padded := List.replicate (9 - digits.length) '0' ++ digits
  String.ofList (padded.reverse.dropWhile (· == '0')).reverse

/-- A time of a second or more, in seconds. -/
def secondsText (t : Nat) : String :=
  let fraction := t % 1000000000
  toString (t / 1000000000) ++ (if fraction = 0 then "" else "." ++ fractionDigits fraction) ++ "s"

/-- When the frame that ends at `now` is due. -/
def due (t : FrameTimer) (now : Nat) : Nat := t.deadline.getD now + t.period

/-- The frame is so late that the pace starts anew. -/
def tooLate (t : FrameTimer) (now : Nat) : Bool := maxLag < now - t.due now

/-- How long to wait before the next frame, asked at `now`. -/
def schedule (t : FrameTimer) (now : Nat) : Nat × FrameTimer :=
  if t.turbo then (0, t)
  else
    let deadline := if t.tooLate now then now else t.due now
    (deadline - now, { t with deadline := some deadline })

/-- What there is to say about a frame that ends at `now`. -/
def notices (t : FrameTimer) (now : Nat) : List Notice :=
  if !t.turbo && t.tooLate now then
    [⟨.debug, .timer, "frame timer " ++ secondsText (now - t.due now) ++ " behind, resynchronising"⟩]
  else []

end FrameTimer

end AmstradCpc
