/-
Packed bytes. Files are read through functions that answer zero past the end,
so a cut-short file never stops a reader half-way; the contents of memories and
ROMs are blocks, whose length is part of their type, so that an index below the
length always names a byte.
-/
namespace AmstradCpc

/-- Blocks of bytes are compared in one way, wherever they are a part of something. -/
instance byteArrayDecidableEq : DecidableEq ByteArray := ByteArray.decEq

/-- `count` bytes of value `v`. -/
def byteRun (count : Nat) (v : UInt8) : ByteArray := ⟨Array.replicate count v⟩

theorem size_byteRun (count : Nat) (v : UInt8) : (byteRun count v).size = count :=
  Array.size_replicate

/-- The bytes of a list, in its order. -/
def byteList (bytes : List UInt8) : ByteArray := ⟨bytes.toArray⟩

/-- Byte `i`, or zero past the end. -/
def byteAt (data : ByteArray) (i : Nat) : UInt8 := if h : i < data.size then data.get i h else 0

/-- The word at `i`, the low byte first. -/
def wordAt (data : ByteArray) (i : Nat) : Nat := (byteAt data i).toNat + 256 * (byteAt data (i + 1)).toNat

/-- `count` bytes from `start` on, zeros standing in for those past the end. -/
def sliceOrZero (data : ByteArray) (start count : Nat) : ByteArray :=
  let found := data.extract start (start + count)
  found ++ byteRun (count - found.size) 0

theorem size_sliceOrZero (data : ByteArray) (start count : Nat) :
    (sliceOrZero data start count).size = count := by
  simp only [sliceOrZero, ByteArray.size_append, ByteArray.size_extract, size_byteRun]
  omega

/-- The bytes of `old` with as many of `new` as fit over its beginning. -/
def overwriteStart (old new : ByteArray) : ByteArray :=
  new.extract 0 old.size ++ old.extract new.size old.size

theorem size_overwriteStart (old new : ByteArray) : (overwriteStart old new).size = old.size := by
  simp only [overwriteStart, ByteArray.size_append, ByteArray.size_extract]
  omega

/-- `data` filled up with zeros to a multiple of `unit`. -/
def padToMultiple (unit : Nat) (data : ByteArray) : ByteArray :=
  data ++ byteRun ((unit - data.size % unit) % unit) 0

/-- `data` begins with `signature`. -/
def beginsWith (data signature : ByteArray) : Bool := data.extract 0 signature.size == signature

theorem size_replace (a : ByteArray) (i : Nat) (v : UInt8) (h : i < a.size) :
    (a.set i v h).size = a.size := by
  cases a
  exact Array.size_set ..

/-! ## Blocks -/

/-- Exactly `n` bytes. -/
structure Block (n : Nat) where
  bytes : ByteArray
  size_eq : bytes.size = n

namespace Block

variable {n : Nat}

def get (b : Block n) (i : Nat) (h : i < n) : UInt8 := b.bytes.get i (by rw [b.size_eq]; exact h)

def set (b : Block n) (i : Nat) (v : UInt8) (h : i < n) : Block n :=
  ⟨b.bytes.set i v (by rw [b.size_eq]; exact h),
    (size_replace b.bytes i v (by rw [b.size_eq]; exact h)).trans b.size_eq⟩

/-- Every byte is `v`. -/
def fill (n : Nat) (v : UInt8) : Block n := ⟨byteRun n v, size_byteRun n v⟩

/-- The first `n` of the bytes given, zeros standing in for those missing. -/
def ofBytes (n : Nat) (data : ByteArray) : Block n := ⟨sliceOrZero data 0 n, size_sliceOrZero ..⟩

theorem ext {a b : Block n} (h : a.bytes = b.bytes) : a = b := by
  cases a; cases b; cases h; rfl

theorem get_set_self (b : Block n) (i : Nat) (v : UInt8) (h : i < n) : (b.set i v h).get i h = v := by
  obtain ⟨⟨bytes⟩, rfl⟩ := b
  exact Array.getElem_set_self (show i < bytes.size from h)

theorem get_set_other (b : Block n) {i j : Nat} (v : UInt8) (hi : i < n) (hj : j < n) (ne : i ≠ j) :
    (b.set i v hi).get j hj = b.get j hj := by
  obtain ⟨⟨bytes⟩, rfl⟩ := b
  exact Array.getElem_set_ne (show i < bytes.size from hi) (show j < bytes.size from hj) ne

theorem get_fill (i : Nat) (v : UInt8) (h : i < n) : (fill n v).get i h = v :=
  Array.getElem_replicate ..

end Block

end AmstradCpc
