/-
Saving what a machine shows and what it sounds like.
-/
import AmstradCpc.Audio.Wav
import AmstradCpc.Machine
import AmstradCpc.Storage.FileTask
import AmstradCpc.Video.Png

namespace AmstradCpc.Machine

variable {m : Type → Type} [Monad m] [MonadFiles m]

/-- Saves the picture. -/
def saveScreenshot (path : String) : FileTask Machine m Unit := do
  FileTask.writeFile path (← FileTask.part).frame.surface.toPng

/-- Saves a sound that was taken from a machine. -/
def saveSound (path : String) (samples : Array Psg.Sample) : FileTask Machine m Unit := do
  let result ← (MonadFiles.writeFile path (Wav.encode samples) : m _)
  FileTask.require (result.mapError .sound)

end AmstradCpc.Machine
