/-
Looking at the state of a component by name. A component lists its properties
once, in a table; what a path answers, which paths exist and what a full dump
holds are all read off that table, so they cannot disagree. Looking never
changes the component.
-/
import AmstradCpc.Text.Hex

namespace AmstradCpc

/-- What a property holds. -/
inductive Value where
  | flag (b : Bool)
  | byte (v : UInt8)
  | word (v : UInt16)
  | long (v : UInt32)
  | count (v : UInt64)
  | text (s : String)
  | series (items : List Value)
  deriving Inhabited

namespace Value

mutual

/-- Equal kinds with equal contents, item by item in a series. -/
def same : Value → Value → Bool
  | .flag a, .flag b => a == b
  | .byte a, .byte b => a == b
  | .word a, .word b => a == b
  | .long a, .long b => a == b
  | .count a, .count b => a == b
  | .text a, .text b => a == b
  | .series a, .series b => sameItems a b
  | _, _ => false

def sameItems : List Value → List Value → Bool
  | [], [] => true
  | a :: as, b :: bs => a.same b && sameItems as bs
  | _, _ => false

end

instance : BEq Value := ⟨same⟩

mutual

/-- Words of up to 32 bits are written in base sixteen at their full width,
counts in base ten, texts as they are. -/
def toText : Value → String
  | .flag b => if b then "true" else "false"
  | .byte v => "0x" ++ Text.hexUpper 2 v.toNat
  | .word v => "0x" ++ Text.hexUpper 4 v.toNat
  | .long v => "0x" ++ Text.hexUpper 8 v.toNat
  | .count v => toString v.toNat
  | .text s => s
  | .series items => "[" ++ ", ".intercalate (itemTexts items) ++ "]"

def itemTexts : List Value → List String
  | [] => []
  | v :: vs => v.toText :: itemTexts vs

end

instance : Coe Bool Value := ⟨.flag⟩
instance : Coe UInt8 Value := ⟨.byte⟩
instance : Coe UInt16 Value := ⟨.word⟩
instance : Coe UInt32 Value := ⟨.long⟩
instance : Coe UInt64 Value := ⟨.count⟩
instance : Coe String Value := ⟨.text⟩

end Value

/-! ## Properties -/

/-- One line of a component's table. -/
inductive Property (α : Type) where
  /-- One path, which may have nothing to answer. -/
  | single (path : String) (read : α → Option Value)
  /-- Every path that begins with `stem`; `read` is given the rest of it. The
  table shows the family as `stem` followed by the name of what varies. -/
  | family (stem varying : String) (read : α → String → Option Value)

namespace Property

/-- A property that always has a value. -/
def plain (path : String) (read : α → Value) : Property α := .single path fun x => some (read x)

/-- The path under which the table lists this property. -/
def path : Property α → String
  | .single path _ => path
  | .family stem varying _ => stem ++ "<" ++ varying ++ ">"

/-- What this property answers to a path, if the path is one of its own. -/
def answer (x : α) (asked : String) : Property α → Option Value
  | .single path read => if asked == path then read x else none
  | .family stem _ read => (asked.dropPrefix? stem).bind fun rest => read x rest.toString

end Property

/-- A component whose state can be looked at by path. -/
class Inspectable (α : Type) where
  properties : List (Property α)

namespace Inspectable

variable {α : Type} [Inspectable α]

/-- What `x` answers to `path`: the first property that has an answer decides. -/
def query (x : α) (path : String) : Option Value :=
  (properties (α := α)).findSome? (Property.answer x path)

variable (α) in
/-- Every path of the table, in its order. -/
def paths : List String := (properties (α := α)).map Property.path

/-- The value of every concrete path that has one, in the order of the table;
paths with a varying part are skipped. -/
def dump (x : α) : List (String × Value) :=
  ((paths α).filter fun path => !path.contains '<').filterMap fun path =>
    (query x path).map fun value => (path, value)

end Inspectable

end AmstradCpc
