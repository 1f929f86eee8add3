/-
The program: it builds a machine, lets it run for a number of frames at the
pace of a real one, or faster, and saves what the user wants to keep.
-/
import AmstradCpc.FrameTimer
import AmstradCpc.Host
import AmstradCpc.Machine.Capture
import AmstradCpc.Machine.Snapshots
import AmstradCpc.Program.Filter
import AmstradCpc.Program.Options

namespace AmstradCpc.Program

open FileTask (note part setPart require within)

variable {m : Type → Type} [Monad m] [MonadHost m]

/-- Shows a notice if it is one of those to be shown. -/
def showNotice (f : NoticeFilter) (n : Notice) : m Unit :=
  if f.shows n then MonadHost.report n else return

/-- Shows the notices there are, and forgets them. -/
def drain {σ : Type} (f : NoticeFilter) : FileTask σ m Unit := do
  let (s, journal) ← get
  set (s, (#[] : Journal))
  journal.forM fun n => (showNotice f n : m Unit)

/-! ## Frames -/

/-- Holds the next frame back until it is due. -/
def pace (timer : FrameTimer) : FileTask Machine m FrameTimer := do
  let time ← (MonadHost.now : m Nat)
  let (delay, next) := timer.schedule time
  (timer.notices time).forM note
  (MonadHost.wait delay : m Unit)
  return next

/-- One frame; the result is its sound. -/
def runFrame : FileTask Machine m (Array Psg.Sample) := do
  modify fun (machine, journal) => machine.clockFrame journal
  let (samples, machine) := (← part).takeAudio
  setPart machine
  return samples

/-- So many frames; the result is their sound, if it is to be kept. -/
def runFrames (f : NoticeFilter) (keep : Bool) :
    Nat → FrameTimer → Array Psg.Sample → FileTask Machine m (Array Psg.Sample)
  | 0, _, sound => return sound
  | n + 1, timer, sound => do
    let samples ← runFrame
    let timer ← if timer.turbo then pure timer else pace timer
    drain f
    runFrames f keep n timer (if keep then sound ++ samples else sound)

/-- A time in seconds with two places. -/
def secondsText (nanoseconds : Nat) : String :=
  let hundredths := (nanoseconds + 5000000) / 10000000
  let places := toString (hundredths % 100)
  toString (hundredths / 100) ++ "." ++ (if places.length < 2 then "0" else "") ++ places ++ "s"

/-! ## Everything in its order -/

/-- Does something with a file if the user has named one. -/
def withFile {σ : Type} (path : Option String) (task : String → FileTask σ m Unit) : FileTask σ m Unit :=
  match path with
  | some path => task path
  | none => return

/-- What is done with a machine that has just been switched on. -/
def session (f : NoticeFilter) (o : Options) (c : Config) : FileTask Machine m Unit := do
  Machine.complete c
  withFile o.snapshot Machine.loadSnapshot
  drain f
  let start ← (MonadHost.now : m Nat)
  let sound ← runFrames f o.sound.isSome o.frames (.ofRefresh c.refresh (c.turbo || o.headless)) #[]
  let time ← (MonadHost.now : m Nat)
  note ⟨.info, .program, toString (← part).frameCount ++ " frames in " ++ secondsText (time - start)⟩
  withFile o.screenshot fun path => do
    Machine.saveScreenshot path
    note ⟨.info, .program, s!"screenshot saved to {path}"⟩
  withFile o.sound fun path => do
    Machine.saveSound path sound
    note ⟨.info, .program, s!"audio saved to {path}"⟩
  withFile o.savedSnapshot Machine.saveSnapshot
  Machine.shutdown

/-- Works on something; shows what there is to say about it, and if that is the
end of it, why. -/
def perform {σ α : Type} (f : NoticeFilter) (s : σ) (task : FileTask σ m α) : m (Option α) := do
  let (result, _, journal) ← task.run (s, #[])
  journal.forM (showNotice f)
  match result with
  | .ok a => return some a
  | .error e =>
    showNotice f ⟨.error, .program, e.message⟩
    return none

/-- The configuration that the user wants. -/
def configuration (o : Options) : m (Except Error Config) :=
  match o.configFile with
  | some path => return (← Config.load path).map o.configure
  | none => return .ok (o.configure {})

/-- Runs a machine of some configuration. -/
def runMachine (f : NoticeFilter) (o : Options) (c : Config) : m (Option Unit) := do
  match ← perform f () (Roms.load c) with
  | some roms => perform f (Machine.ofConfig c roms) (session f o c)
  | none => return none

/-- The whole program, from the command line and what the user wants to see of
its notices. The result is zero if nothing went wrong. -/
def run (arguments : List String) (spec : Option String) : m UInt8 := do
  match Options.ofArguments arguments with
  | .error problem =>
    MonadHost.tell problem.message
    return 1
  | .ok .help =>
    Options.usage.forM MonadHost.tell
    return 0
  | .ok (.run o) =>
    match ← configuration o with
    | .error e =>
      MonadHost.tell e.message
      return 1
    | .ok c =>
      let filter : NoticeFilter := { limit := c.verbosity.limit }
      let (filter, warnings) := match spec with
        | some spec => filter.takeSpec spec
        | none => (filter, [])
      warnings.forM MonadHost.tell
      o.complaints.forM (showNotice filter)
      match ← runMachine filter o c with
      | some () => return 0
      | none => return 1

end AmstradCpc.Program
