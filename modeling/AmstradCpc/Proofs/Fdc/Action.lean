/-
What a host does to the floppy disk controller, as data: accesses to the data
register, the motor line, time, reset, and the handling of drives, disks and
heads. A run is a list of actions, in any order; what every action keeps, every
run keeps. Then what each operation on a drive leaves alone.
-/
import AmstradCpc.Fdc

namespace AmstradCpc.Fdc

open Disk (Image)

/-- One call that a host makes. -/
inductive Action where
  | write (v : UInt8)
  | read
  | setMotor (on : Bool)
  | clock
  | reset
  | attach (unit : Nat)
  | detach (unit : Nat)
  | insert (unit : Nat) (disk : Image)
  | eject (unit : Nat)
  | setCylinder (unit : Nat) (cylinder : UInt8)

/-- The controller after an action. A disk that finds no drive changes nothing. -/
def perform (f : Fdc) : Action → Fdc
  | .write v => f.write v
  | .read => f.read.2
  | .setMotor on => f.setMotor on
  | .clock => f.clock
  | .reset => f.reset
  | .attach unit => f.attach unit
  | .detach unit => f.detach unit
  | .insert unit disk => (f.insert unit disk).getD f
  | .eject unit => f.eject unit
  | .setCylinder unit cylinder => f.setCylinder unit cylinder

/-- The controller after a run of actions. -/
def performAll (f : Fdc) (actions : List Action) : Fdc := actions.foldl perform f

theorem performAll_append (f : Fdc) (first second : List Action) :
    f.performAll (first ++ second) = (f.performAll first).performAll second := List.foldl_append

/-- Every disk that an action brings in is one of `P`. -/
def Action.Brings (P : Image → Prop) : Action → Prop
  | .insert _ disk => P disk
  | _ => True

theorem Action.brings_true (a : Action) : a.Brings fun _ => True := by
  cases a <;> exact trivial

theorem Action.Brings.mono {P Q : Image → Prop} {a : Action} (h : a.Brings P) (hPQ : ∀ d, P d → Q d) :
    a.Brings Q := by
  cases a with
  | insert unit disk => exact hPQ disk h
  | write | read | setMotor | clock | reset | attach | detach | eject | setCylinder => exact trivial

/-- The action adds a drive or takes one away. -/
def Action.Wires : Action → Prop
  | .attach _ | .detach _ => True
  | _ => False

/-- What the actions of a run keep one by one, the run keeps. -/
theorem performAll_keeps {P : Image → Prop} {I : Fdc → Prop}
    (step : ∀ f a, I f → a.Brings P → I (f.perform a)) :
    ∀ {f : Fdc} (actions : List Action), I f → (∀ a ∈ actions, a.Brings P) →
      I (f.performAll actions)
  | _, [], h, _ => h
  | f, a :: actions, h, hs =>
    performAll_keeps step actions (step f a h (hs a (by simp))) fun b hb => hs b (by simp [hb])

/-! ## What the phase does not depend on -/

/-- Changing a drive changes nothing but the drives. -/
theorem modifyDrive_eq (f : Fdc) (unit : Nat) (change : Drive → Drive) :
    f.modifyDrive unit change = { f with drives := (f.modifyDrive unit change).drives } := by
  unfold modifyDrive
  split <;> rfl

@[simp] theorem phase_modifyDrive (f : Fdc) (unit : Nat) (change : Drive → Drive) :
    (f.modifyDrive unit change).phase = f.phase := by
  rw [modifyDrive_eq]

/-- Handling drives and disks, the motor and time leave the phase alone. -/
theorem phase_perform {f : Fdc} {a : Action} (hw : ∀ v, a ≠ .write v) (hr : a ≠ .read)
    (hs : a ≠ .reset) :
    (f.perform a).phase = f.phase := by
  cases a with
  | write v => exact absurd rfl (hw v)
  | read => exact absurd rfl hr
  | reset => exact absurd rfl hs
  | setMotor | clock | detach => rfl
  | attach unit =>
    simp only [perform, attach]
    split <;> rfl
  | insert unit disk =>
    simp only [perform, insert]
    cases f.drive unit <;> rfl
  | eject unit => exact phase_modifyDrive ..
  | setCylinder unit cylinder => exact phase_modifyDrive ..

end AmstradCpc.Fdc
