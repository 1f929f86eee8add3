import AmstradCpc.Audio.Wav
import AmstradCpc.Board
import AmstradCpc.Bus
import AmstradCpc.Bus.Flat
import AmstradCpc.Bus.Recorded
import AmstradCpc.Bytes
import AmstradCpc.Config
import AmstradCpc.Config.Choice
import AmstradCpc.Config.File
import AmstradCpc.Cpu
import AmstradCpc.Cpu.Arithmetic
import AmstradCpc.Cpu.Bits
import AmstradCpc.Cpu.Exec
import AmstradCpc.Cpu.Execute
import AmstradCpc.Cpu.ExtendedSet
import AmstradCpc.Cpu.Flags
import AmstradCpc.Cpu.Inspect
import AmstradCpc.Cpu.Instruction
import AmstradCpc.Cpu.Registers
import AmstradCpc.Crtc
import AmstradCpc.Disk.File
import AmstradCpc.Disk.Image
import AmstradCpc.Drives
import AmstradCpc.Error
import AmstradCpc.Fdc
import AmstradCpc.Fdc.Buffered
import AmstradCpc.Fdc.Command
import AmstradCpc.FrameTimer
import AmstradCpc.GateArray
import AmstradCpc.Host
import AmstradCpc.Host.Recorded
import AmstradCpc.Inspect
import AmstradCpc.Json.Parse
import AmstradCpc.Json.Value
import AmstradCpc.Keyboard
import AmstradCpc.Keyboard.HostKeys
import AmstradCpc.Machine
import AmstradCpc.Machine.Build
import AmstradCpc.Machine.Capture
import AmstradCpc.Machine.Inspect
import AmstradCpc.Machine.Snapshots
import AmstradCpc.Main
import AmstradCpc.Memory
import AmstradCpc.Memory.Pager
import AmstradCpc.Notice
import AmstradCpc.Peripherals
import AmstradCpc.Ppi
import AmstradCpc.Program
import AmstradCpc.Program.Filter
import AmstradCpc.Program.Options
import AmstradCpc.Psg
import AmstradCpc.Psg.Generators
import AmstradCpc.Snapshot
import AmstradCpc.Storage
import AmstradCpc.Storage.FileTask
import AmstradCpc.Storage.Tree
import AmstradCpc.Text.Blank
import AmstradCpc.Text.Hex
import AmstradCpc.Text.Number
import AmstradCpc.Text.Printable
import AmstradCpc.Text.Quoted
import AmstradCpc.Text.Regex
import AmstradCpc.Text.Regex.Bracket
import AmstradCpc.Text.Regex.Escape
import AmstradCpc.Text.Regex.Flaw
import AmstradCpc.Text.Regex.Parse
import AmstradCpc.Text.Regex.Reader
import AmstradCpc.Text.Split
import AmstradCpc.Text.Terminal
import AmstradCpc.Ticks
import AmstradCpc.Video.Frame
import AmstradCpc.Video.Paint
import AmstradCpc.Video.Palette
import AmstradCpc.Video.Pixels
import AmstradCpc.Video.Png
import AmstradCpc.Video.Surface
import AmstradCpc.Word
import AmstradCpc.Proofs.Fdc.Action
import AmstradCpc.Proofs.Fdc.Handshake
import AmstradCpc.Proofs.Fdc.Agreement
import AmstradCpc.Proofs.Bytes
import AmstradCpc.Proofs.Disk.Bounds
import AmstradCpc.Proofs.Disk.Order
import AmstradCpc.Proofs.Disk.RoundTrip
import AmstradCpc.Proofs.Fdc.Disks
import AmstradCpc.Proofs.Fdc.WriteBack
import AmstradCpc.Proofs.Fdc.Exchange
import AmstradCpc.Proofs.Fdc.Progress
import AmstradCpc.Proofs.Drives.Mounting
import AmstradCpc.Proofs.Fdc.ReadBack
import AmstradCpc.Proofs.Drives.Unsaved
import AmstradCpc.Proofs.Snapshot.Loaded
import AmstradCpc.Proofs.Snapshot.Restored
import AmstradCpc.Proofs.Snapshot.RoundTrip
import AmstradCpc.Proofs.Snapshot.Determined
import AmstradCpc.Proofs.Board.Cells
import AmstradCpc.Proofs.Board.Map
import AmstradCpc.Proofs.Board.Reached
import AmstradCpc.Proofs.Snapshot.MemoryMap
import AmstradCpc.Proofs.Cpu.Steps
import AmstradCpc.Proofs.Cpu.Costs
import AmstradCpc.Proofs.Snapshot.Resume
import AmstradCpc.Proofs.Board.Windows
import AmstradCpc.Proofs.Board.Flat
import AmstradCpc.Proofs.Word
import AmstradCpc.Proofs.History
import AmstradCpc.Proofs.Video.Picture
import AmstradCpc.Proofs.Board.Wires
import AmstradCpc.Proofs.Keyboard.Scan
import AmstradCpc.Proofs.Cpu.Cycles
import AmstradCpc.Proofs.Machine.Events
import AmstradCpc.Proofs.Machine.Idle
import AmstradCpc.Proofs.Machine.Sync
import AmstradCpc.Proofs.Machine.Beam
import AmstradCpc.Proofs.Machine.LineCounter
import AmstradCpc.Proofs.Machine.Clocks
import AmstradCpc.Proofs.Machine.Pace
import AmstradCpc.Proofs.Machine.Record
import AmstradCpc.Proofs.Cpu.Grants
import AmstradCpc.Proofs.Cpu.Exchange
import AmstradCpc.Proofs.Cpu.IndexPrefix
import AmstradCpc.Proofs.Cpu.Pieces
import AmstradCpc.Proofs.Cpu.Interrupts
import AmstradCpc.Proofs.Crtc.Timing
import AmstradCpc.Proofs.Crtc.Clock
import AmstradCpc.Proofs.Crtc.Reports
import AmstradCpc.Proofs.Cpu.WordArithmetic
import AmstradCpc.Proofs.Cpu.Repeats
import AmstradCpc.Proofs.Cpu.Blocks
import AmstradCpc.Proofs.Cpu.IndexedBits
import AmstradCpc.Proofs.Crtc.Vsync
import AmstradCpc.Proofs.Crtc.Recovery
import AmstradCpc.Proofs.Machine.InterruptSpacing
import AmstradCpc.Proofs.Psg.Envelope
import AmstradCpc.Proofs.Psg.Ranges
import AmstradCpc.Proofs.Fdc.ReadData
import AmstradCpc.Proofs.Disk.Places
import AmstradCpc.Proofs.Fdc.Formatting
import AmstradCpc.Proofs.Fdc.Steps
import AmstradCpc.Proofs.Fdc.WriteData
import AmstradCpc.Proofs.Fdc.Commits
import AmstradCpc.Proofs.Fdc.SeekEnds
import AmstradCpc.Proofs.Fdc.Rotation
import AmstradCpc.Proofs.Fdc.Hidden
import AmstradCpc.Proofs.Board.Ports
import AmstradCpc.Proofs.Drives.Failure
import AmstradCpc.Proofs.Registers.LastStored
import AmstradCpc.Proofs.Registers.Chips
import AmstradCpc.Proofs.FrameTimer
