/-
What the program runs on: files, a place to write lines to, and time. The
program is written for any monad that has these.
-/
import AmstradCpc.Notice
import AmstradCpc.Storage

namespace AmstradCpc

class MonadHost (m : Type → Type) extends MonadFiles m where
  /-- Writes a line for the user. -/
  tell : String → m Unit
  /-- Shows a notice. -/
  report : Notice → m Unit
  /-- The time in nanoseconds since a moment that stays the same. -/
  now : m Nat
  /-- Waits for so many nanoseconds. -/
  wait : Nat → m Unit

end AmstradCpc
