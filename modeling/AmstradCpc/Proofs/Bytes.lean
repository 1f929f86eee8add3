/-
Where chunks of bytes lie in a file. A writer strings chunks together and a reader
picks bytes out at positions; `HoldsAt` is what the two have in common. It goes
through concatenation both ways, so what a file holds at a position follows from
how it was put together, and what is read there follows from what the file holds.
-/
import Mathlib.Algebra.Order.Ring.Nat
import AmstradCpc.Bytes

namespace AmstradCpc

instance byteArrayLawfulBEq : LawfulBEq ByteArray where
  eq_of_beq h := ByteArray.ext (eq_of_beq (α := Array UInt8) h)
  rfl := beq_self_eq_true (α := Array UInt8) _

theorem toNat_max (a b : UInt8) : (max a b).toNat = max a.toNat b.toNat := by
  show (if a ≤ b then b else a).toNat = _
  simp only [UInt8.le_iff_toNat_le]
  split <;> omega

/-! ## Lists of bytes -/

@[simp] theorem size_byteList (bytes : List UInt8) : (byteList bytes).size = bytes.length := by
  simp [byteList, ByteArray.size]

theorem byteList_append (a b : List UInt8) : byteList (a ++ b) = byteList a ++ byteList b := by
  simp [byteList, ByteArray.ext_iff]

theorem byteAt_byteList (bytes : List UInt8) (i : Nat) :
    byteAt (byteList bytes) i = bytes[i]?.getD 0 := by
  have hsize := size_byteList bytes
  by_cases h : i < bytes.length
  · rw [byteAt, dif_pos (by omega), List.getElem?_eq_getElem h, Option.getD_some]
    exact List.getElem_toArray ..
  · rw [byteAt, dif_neg (by omega), List.getElem?_eq_none (by omega), Option.getD_none]

theorem length_flatMap_of_length {α β : Type} {f : α → List β} {n : Nat} (h : ∀ a, (f a).length = n) :
    ∀ l : List α, (l.flatMap f).length = l.length * n
  | [] => (Nat.zero_mul n).symm
  | a :: l => by
    rw [List.flatMap_cons, List.length_append, h, length_flatMap_of_length h l, List.length_cons,
      Nat.add_mul, Nat.one_mul, Nat.add_comm]

/-- Chunks strung together. -/
def joined (chunks : List ByteArray) : ByteArray := chunks.foldr (· ++ ·) .empty

@[simp] theorem joined_cons (a : ByteArray) (chunks : List ByteArray) :
    joined (a :: chunks) = a ++ joined chunks := rfl

theorem joined_append : ∀ a b : List ByteArray, joined (a ++ b) = joined a ++ joined b
  | [], b => (ByteArray.empty_append).symm
  | c :: a, b => by
    rw [List.cons_append, joined_cons, joined_append a b, joined_cons, ByteArray.append_assoc]

theorem size_joined (chunks : List ByteArray) : (joined chunks).size = (chunks.map (·.size)).sum := by
  induction chunks with
  | nil => rfl
  | cons a chunks ih => rw [joined_cons, ByteArray.size_append, List.map_cons, List.sum_cons, ih]

theorem size_joined_blocks {n : Nat} (blocks : List (Block n)) :
    (joined (blocks.map (·.bytes))).size = blocks.length * n := by
  induction blocks with
  | nil => exact (Nat.zero_mul n).symm
  | cons b blocks ih =>
    rw [List.map_cons, joined_cons, ByteArray.size_append, ih, b.size_eq, List.length_cons, Nat.succ_mul,
      Nat.add_comm]

theorem foldl_append {α : Type} (f : α → ByteArray) : ∀ (l : List α) (out : ByteArray),
    l.foldl (fun out a => out ++ f a) out = out ++ joined (l.map f)
  | [], _ => ByteArray.append_empty.symm
  | a :: l, out => by
    rw [List.foldl_cons, foldl_append f l, List.map_cons, joined_cons, ByteArray.append_assoc]

/-! ## Filling up -/

theorem sliceOrZero_eq_byteList (b : ByteArray) (n : Nat) :
    sliceOrZero b 0 n = byteList ((b.data.toList.take n).rightpad n 0) := by
  have hsize : (b.extract 0 (0 + n)).size = (b.data.toList.take n).length := by
    rw [ByteArray.size_extract, List.length_take, Array.length_toList, Nat.zero_add, Nat.sub_zero]
    rfl
  have hdata : (b.extract 0 (0 + n)).data.toList = b.data.toList.take n := by
    rw [ByteArray.data_extract, Array.toList_extract, Nat.zero_add, List.extract_eq_take_drop, List.drop_zero,
      Nat.sub_zero]
  refine ByteArray.ext (Array.toList_inj.mp ?_)
  simp only [sliceOrZero, byteList, byteRun, List.rightpad, ByteArray.data_append, Array.toList_append, hdata,
    hsize, Array.toList_replicate]

/-- A beginning that is short enough is not cut. -/
theorem sliceOrZero_append {a : ByteArray} {count : Nat} (b : ByteArray) (h : a.size ≤ count) :
    sliceOrZero (a ++ b) 0 count = a ++ sliceOrZero b 0 (count - a.size) := by
  have ha : a.extract 0 count = a := by
    rw [← Nat.max_eq_left h, ByteArray.extract_zero_max_size]
  simp only [sliceOrZero, Nat.zero_add, ByteArray.extract_append, Nat.zero_sub, ha, ByteArray.size_append,
    ByteArray.append_assoc, Nat.sub_sub]

theorem size_padToMultiple (unit : Nat) (data : ByteArray) :
    (padToMultiple unit data).size = data.size + (unit - data.size % unit) % unit := by
  simp only [padToMultiple, ByteArray.size_append, size_byteRun]

theorem byteAt_of_le {data : ByteArray} {i : Nat} (h : data.size ≤ i) : byteAt data i = 0 :=
  dif_neg (by omega)

theorem byteAt_append_left {a : ByteArray} (b : ByteArray) {i : Nat} (h : i < a.size) :
    byteAt (a ++ b) i = byteAt a i := by
  have hboth : i < (a ++ b).size := by
    rw [ByteArray.size_append]
    omega
  rw [byteAt, byteAt, dif_pos hboth, dif_pos h]
  exact ByteArray.getElem_append_left h

theorem byteAt_append_right {a : ByteArray} (b : ByteArray) {i : Nat} (h : a.size ≤ i) :
    byteAt (a ++ b) i = byteAt b (i - a.size) := by
  by_cases hboth : i < (a ++ b).size
  · have hb : i - a.size < b.size := by
      rw [ByteArray.size_append] at hboth
      omega
    rw [byteAt, byteAt, dif_pos hboth, dif_pos hb]
    exact ByteArray.getElem_append_right h
  · rw [byteAt_of_le (by omega), byteAt_of_le]
    rw [ByteArray.size_append] at hboth
    omega

theorem byteAt_byteRun_zero (count i : Nat) : byteAt (byteRun count 0) i = 0 := by
  by_cases h : i < (byteRun count 0).size
  · rw [byteAt, dif_pos h]
    exact Array.getElem_replicate ..
  · exact byteAt_of_le (by omega)

/-- Zeros at the end are what is read there anyway. -/
theorem byteAt_append_zeros (a : ByteArray) (count i : Nat) :
    byteAt (a ++ byteRun count 0) i = byteAt a i := by
  by_cases h : i < a.size
  · exact byteAt_append_left _ h
  · rw [byteAt_append_right _ (by omega), byteAt_byteRun_zero, byteAt_of_le (by omega)]

theorem byteAt_extract {data : ByteArray} {start stop i : Nat} (h : i < stop - start) :
    byteAt (data.extract start stop) i = byteAt data (start + i) := by
  by_cases hinside : start + i < data.size
  · have hextract : i < (data.extract start stop).size := by
      rw [ByteArray.size_extract]
      omega
    rw [byteAt, byteAt, dif_pos hextract, dif_pos hinside]
    exact ByteArray.getElem_extract hextract
  · have hextract : ¬i < (data.extract start stop).size := by
      rw [ByteArray.size_extract]
      omega
    rw [byteAt, byteAt, dif_neg hextract, dif_neg hinside]

/-- Where there is new data it is read, and the old data behind it. -/
theorem byteAt_overwriteStart {old new : ByteArray} {i : Nat} (h : i < old.size) :
    byteAt (overwriteStart old new) i = if i < new.size then byteAt new i else byteAt old i := by
  have hsize : (new.extract 0 old.size).size = min old.size new.size := by
    rw [ByteArray.size_extract, Nat.sub_zero]
  rw [overwriteStart]
  split
  · rw [byteAt_append_left _ (by omega), byteAt_extract (by omega), Nat.zero_add]
  · rw [byteAt_append_right _ (by omega), byteAt_extract (by omega)]
    exact congrArg (byteAt old) (by omega)

theorem Block.get_ofBytes {n : Nat} (data : ByteArray) {i : Nat} (h : i < n) :
    (Block.ofBytes n data).get i h = byteAt data i := by
  have hsize : i < (sliceOrZero data 0 n).size := by rwa [size_sliceOrZero]
  have hbyte : byteAt (sliceOrZero data 0 n) i = byteAt data i := by
    rw [sliceOrZero, byteAt_append_zeros, byteAt_extract (by omega), Nat.zero_add]
  rwa [byteAt, dif_pos hsize] at hbyte

/-! ## Chunks in a file -/

/-- `chunk` lies in `file` from `start` on. -/
structure HoldsAt (file : ByteArray) (start : Nat) (chunk : ByteArray) : Prop where
  fits : start + chunk.size ≤ file.size
  extract : file.extract start (start + chunk.size) = chunk

theorem holdsAt_of_eq {file chunk : ByteArray} (h : file = chunk) : HoldsAt file 0 chunk := by
  subst h
  exact ⟨by omega, by rw [Nat.zero_add, ByteArray.extract_zero_size]⟩

theorem holdsAt_append {file : ByteArray} {start : Nat} {a b : ByteArray} :
    HoldsAt file start (a ++ b) ↔ HoldsAt file start a ∧ HoldsAt file (start + a.size) b := by
  have hsplit : file.extract start (start + (a ++ b).size) =
      file.extract start (start + a.size) ++ file.extract (start + a.size) (start + a.size + b.size) := by
    rw [ByteArray.size_append, ← Nat.add_assoc]
    exact ByteArray.extract_eq_extract_append_extract _ (by omega) (by omega)
  constructor
  · intro ⟨hfits, hext⟩
    rw [ByteArray.size_append] at hfits
    rw [hsplit] at hext
    have hsize : (file.extract start (start + a.size)).size = a.size := by
      rw [ByteArray.size_extract]
      omega
    have ha := ByteArray.append_inj_left hext hsize
    rw [ha, ByteArray.append_right_inj] at hext
    exact ⟨⟨by omega, ha⟩, ⟨by omega, hext⟩⟩
  · intro ⟨ha, hb⟩
    have := hb.fits
    refine ⟨by rw [ByteArray.size_append]; omega, ?_⟩
    rw [hsplit, ha.extract, hb.extract]

/-- What is read inside a chunk is what the chunk has there. -/
theorem HoldsAt.byteAt {file chunk : ByteArray} {start i : Nat} (h : HoldsAt file start chunk)
    (hi : i < chunk.size) : AmstradCpc.byteAt file (start + i) = AmstradCpc.byteAt chunk i := by
  have hfits := h.fits
  have hget : ∀ hf hc, file.get (start + i) hf = chunk.get i hc := by
    intro hf hc
    have hlt : i < (file.extract start (start + chunk.size)).size := by rw [h.extract]; exact hc
    have hsame : ∀ {other : ByteArray} (hi : i < other.size), other = chunk →
        other.get i hi = chunk.get i hc := by
      rintro other hi rfl
      rfl
    exact (ByteArray.getElem_extract hlt).symm.trans (hsame hlt h.extract)
  have hi' : start + i < file.size := by omega
  rw [AmstradCpc.byteAt, AmstradCpc.byteAt, dif_pos hi', dif_pos hi]
  exact hget hi' hi

/-- The same where the chunk is a list and the position is counted from the start of the file. -/
theorem HoldsAt.byteAt_list {file : ByteArray} {bytes : List UInt8} {start i : Nat}
    (h : HoldsAt file start (byteList bytes)) (hstart : start ≤ i) (hi : i < start + bytes.length) :
    AmstradCpc.byteAt file i = bytes[i - start]?.getD 0 := by
  have hinside : i - start < (byteList bytes).size := by
    rw [size_byteList]
    omega
  have hbyte := h.byteAt hinside
  rwa [Nat.add_sub_cancel' hstart, byteAt_byteList] at hbyte

theorem HoldsAt.byteAt_vector {file : ByteArray} {n start i : Nat} {bytes : Vector UInt8 n}
    (h : HoldsAt file start (byteList bytes.toList)) (hi : i < n) :
    AmstradCpc.byteAt file (start + i) = bytes[i] := by
  rw [h.byteAt_list (Nat.le_add_right ..) (by rw [Vector.length_toList]; omega), Nat.add_sub_cancel_left]
  simp [hi]

/-- Blocks of one size lie one behind the other. -/
theorem HoldsAt.block {file : ByteArray} {n : Nat} : ∀ {blocks : List (Block n)} {start : Nat},
    HoldsAt file start (joined (blocks.map (·.bytes))) → ∀ {i : Nat} (hi : i < blocks.length),
    HoldsAt file (start + i * n) blocks[i].bytes
  | b :: blocks, start, h, 0, _ => by
    rw [List.map_cons, joined_cons, holdsAt_append] at h
    rw [Nat.zero_mul, Nat.add_zero]
    exact h.1
  | b :: blocks, start, h, i + 1, hi => by
    rw [List.map_cons, joined_cons, holdsAt_append, b.size_eq] at h
    have hblock := HoldsAt.block h.2 (i := i) (Nat.lt_of_succ_lt_succ hi)
    rw [show start + (i + 1) * n = start + n + i * n by rw [Nat.add_mul]; omega]
    exact hblock

theorem HoldsAt.sliceOrZero {file chunk : ByteArray} {start : Nat} (h : HoldsAt file start chunk) :
    AmstradCpc.sliceOrZero file start chunk.size = chunk := by
  simp only [AmstradCpc.sliceOrZero, h.extract, Nat.sub_self]
  exact ByteArray.append_empty

theorem HoldsAt.beginsWith {file signature : ByteArray} (h : HoldsAt file 0 signature) :
    AmstradCpc.beginsWith file signature = true := by
  have := h.extract
  rw [Nat.zero_add] at this
  simp only [AmstradCpc.beginsWith, this, beq_self_eq_true]

end AmstradCpc
