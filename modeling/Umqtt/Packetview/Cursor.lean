/-
Umqtt/Packetview/Cursor.lean

The cursors the decoder and the encoders work with (`packetview/cursor.rs`)
and the buffer that user closures write to (`packetview/borrowed_buf.rs`).

A `Cursor` is what is left to read of a byte slice.  `WriteCursor` and
`BorrowedBuf` are a byte slice together with the number of bytes written to
its front (`next_write_index` in the one, `len` in the other), which is what
`Wire.Filled` is; only the operations differ.
-/
import Umqtt.Packetview.Types

namespace Umqtt

open Effects Wire

variable {ε : Type}

/-! ### Reading -/

/-- The unread rest of a byte slice. -/
abbrev Cursor := List UInt8

namespace Cursor

def advance (n : Nat) : Act Cursor ε Unit := do
  let rest ← Act.gets id
  let rest ← Act.lift (slice rest n rest.length)
  Act.modify fun _ => rest

def takeU8 : Act Cursor ε UInt8 := do
  let c ← Act.gets id
  let ret ← Act.lift (index c 0)
  advance 1
  pure ret

def takeU16 : Act Cursor ε UInt16 := do
  let c ← Act.gets id
  let hi ← Act.lift (index c 0)
  let lo ← Act.lift (index c 1)
  advance 2
  pure (fromBeBytes hi lo)

def splitTo (n : Nat) : Act Cursor ε (List UInt8) := do
  let c ← Act.gets id
  let ret ← Act.lift (slice c 0 n)
  advance n
  pure ret

theorem advance_apply {n : Nat} {c : Cursor} (h : n ≤ c.length) :
    (advance n : Act Cursor ε Unit) c = (.ok (), c.drop n) := by
  simp [advance, Act.bind_apply, slice_to_end h]

theorem takeU8_cons (b : UInt8) (c : Cursor) :
    (takeU8 : Act Cursor ε UInt8) (b :: c) = (.ok b, c) := by
  simp [takeU8, Act.bind_apply, index, advance_apply]

theorem takeU16_cons (hi lo : UInt8) (c : Cursor) :
    (takeU16 : Act Cursor ε UInt16) (hi :: lo :: c) = (.ok (fromBeBytes hi lo), c) := by
  simp [takeU16, Act.bind_apply, index, advance_apply]

theorem splitTo_apply {n : Nat} {c : Cursor} (h : n ≤ c.length) :
    (splitTo n : Act Cursor ε (List UInt8)) c = (.ok (c.take n), c.drop n) := by
  simp [splitTo, Act.bind_apply, slice_zero h, advance_apply h]

end Cursor

/-! ### Writing -/

/-- A byte slice and the index to write to next. -/
abbrev WriteCursor := Filled UInt8

namespace WriteCursor

def putU8 (byte : UInt8) : Act WriteCursor WriteError Unit := fun w =>
  if w.len = w.capacity then (.err .notEnoughCapacity, w) else (.ok (), w.extend [byte])

def putSlice (slice : List UInt8) : Act WriteCursor WriteError Unit := fun w =>
  if w.room < slice.length then (.err .notEnoughCapacity, w) else (.ok (), w.extend slice)

def putU16 (value : UInt16) : Act WriteCursor WriteError Unit := fun w =>
  if w.room < 2 then (.err .notEnoughCapacity, w) else putSlice (toBeBytes value) w

def bytesWritten : Act WriteCursor WriteError Nat := Act.gets Filled.len

theorem emits_putSlice (bs : List UInt8) :
    Emits WriteError.notEnoughCapacity (putSlice bs) bs () := by
  refine fun w => ⟨fun h => ?_, fun h => ⟨w, ?_, rfl⟩⟩
  · rw [putSlice, if_neg (by omega)]
  · rw [putSlice, if_pos h]

theorem emits_putU8 (b : UInt8) : Emits WriteError.notEnoughCapacity (putU8 b) [b] () := by
  intro w
  have hle : w.len ≤ w.capacity := w.le
  rw [List.length_singleton, Filled.room]
  refine ⟨fun h => ?_, fun h => ⟨w, ?_, rfl⟩⟩
  · rw [putU8, if_neg (by omega)]
  · rw [putU8, if_pos (by omega)]

theorem emits_putU16 (n : UInt16) :
    Emits WriteError.notEnoughCapacity (putU16 n) (toBeBytes n) () := by
  intro w
  rw [putU16, length_toBeBytes]
  refine ⟨fun h => ?_, fun h => ⟨w, if_pos h, rfl⟩⟩
  rw [if_neg (by omega)]
  exact (emits_putSlice (toBeBytes n) w).1 h

end WriteCursor

/-! ### Buffers for user closures -/

/-- A byte slice that closures append to. -/
abbrev BorrowedBuf := Filled UInt8

namespace BorrowedBuf

def addSlice (data : List UInt8) : Act BorrowedBuf WriteError Unit := fun b =>
  if data.length ≤ b.room then (.ok (), b.extend data) else (.err .notEnoughCapacity, b)

theorem addSlice_of_le {data : List UInt8} {b : BorrowedBuf} (h : data.length ≤ b.room) :
    addSlice data b = (.ok (), b.extend data) := if_pos h

theorem addSlice_of_lt {data : List UInt8} {b : BorrowedBuf} (h : b.room < data.length) :
    addSlice data b = (.err .notEnoughCapacity, b) := if_neg (by omega)

end BorrowedBuf

end Umqtt
