/-
The boards that come about. A board is put together, and from then on the processor has bus
cycles with it, it is reset, and snapshots are loaded into the machine it is part of. What else
happens to it in between is left open: `Board.Reached` takes it as a relation.
-/
import AmstradCpc.Proofs.Board.Map
import AmstradCpc.Proofs.Snapshot.Loaded

namespace AmstradCpc

/-- What the processor asks of the bus in one cycle. -/
inductive Cycle where
  | fetch (address : UInt16)
  | read (address : UInt16)
  | write (address : UInt16) (v : UInt8)
  | acknowledge
  | input (port : UInt16)
  | output (port : UInt16) (v : UInt8)
  deriving DecidableEq

namespace Cycle

variable {β : Type} [Bus β]

/-- The byte that the processor gets, if it asks for one, and the bus as it is afterwards. -/
def run (bus : β) : Cycle → Option UInt8 × β
  | .fetch address => (Bus.fetch bus address).map some id
  | .read address => (Bus.read bus address).map some id
  | .write address v => (none, Bus.write bus address v)
  | .acknowledge => (Bus.acknowledge bus).map some id
  | .input port => (Bus.input bus port).map some id
  | .output port v => (none, Bus.output bus port v)

def runAll (bus : β) (cycles : List Cycle) : β := cycles.foldl (fun bus cycle => (cycle.run bus).2) bus

theorem runAll_cons (bus : β) (cycle : Cycle) (cycles : List Cycle) :
    runAll bus (cycle :: cycles) = runAll (cycle.run bus).2 cycles := rfl

theorem runAll_append (bus : β) (cycles more : List Cycle) :
    runAll bus (cycles ++ more) = runAll (runAll bus cycles) more := List.foldl_append

end Cycle

namespace Board

/-- The boards that `first` becomes, where `elsewhere` is what may happen to a board besides. -/
inductive Reached (elsewhere : Board → Board → Prop) (first : Board) : Board → Prop where
  | start : Reached elsewhere first first
  | cycle {bench : Bench} (cycle : Cycle) :
      Reached elsewhere first bench.board → Reached elsewhere first (cycle.run bench).2.board
  | reset {b : Board} : Reached elsewhere first b → Reached elsewhere first b.reset
  | snapshot (data : ByteArray) {m : Machine} :
      Reached elsewhere first m.board → Reached elsewhere first (Snapshot.loadOrReset data m).2.board
  | elsewhere {b b' : Board} : Reached elsewhere first b → elsewhere b b' → Reached elsewhere first b'

variable {elsewhere : Board → Board → Prop} {first : Board} {P : Board → Prop} {bench : Bench}

theorem Reached.runAll (h : Reached elsewhere first bench.board) (cycles : List Cycle) :
    Reached elsewhere first (Cycle.runAll bench cycles).board := by
  induction cycles generalizing bench with
  | nil => exact h
  | cons cycle cycles ih => exact ih (h.cycle cycle)

/-- A property of the map that writes to memory keep is kept by every cycle. -/
theorem OfMap.cycle (hP : OfMap P)
    (hwrite : ∀ {b : Board} (address : UInt16) (v : UInt8), P b → P (b.writeMemory address v))
    (cycle : Cycle) (h : P bench.board) : P (cycle.run bench).2.board := by
  cases cycle with
  | fetch address => exact h
  | read address => exact h
  | write address v => exact hwrite address v h
  | acknowledge => exact hP.acknowledge h
  | input port => exact hP.input port h
  | output port v => exact hP.output port v h

/-- Memory, map, and what the map is worked out from are left alone. -/
structure KeepsMap (b b' : Board) : Prop where
  memory : b'.memory = b.memory
  pager : b'.pager = b.pager
  control : b'.gateArray.control = b.gateArray.control

end Board

end AmstradCpc
