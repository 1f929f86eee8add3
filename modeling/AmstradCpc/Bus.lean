/-
The rest of the machine as the processor sees it: one operation for each kind
of bus cycle. Memory cycles address the 64K memory space and port cycles the
64K port space. A cycle may change whatever is on the other side, so each one
answers the bus as it is afterwards.
-/
import AmstradCpc.Word

namespace AmstradCpc

class Bus (β : Type) where
  /-- The first byte of an instruction, or of what follows a prefix byte. -/
  fetch : β → UInt16 → UInt8 × β
  read : β → UInt16 → UInt8 × β
  write : β → UInt16 → UInt8 → β
  /-- Interrupt acknowledge: the byte is whatever the interrupting device puts
  on the data lines. -/
  acknowledge : β → UInt8 × β
  input : β → UInt16 → UInt8 × β
  output : β → UInt16 → UInt8 → β

end AmstradCpc
