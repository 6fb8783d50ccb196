/-
Umqtt/NanoClient/Buffer.lean

The receive buffer (`nano_client/buffer.rs`): a byte slice of which the first
`used` bytes hold received bytes.  Nothing in the type keeps `used` within the
slice; accesses beyond it panic.
-/
import Umqtt.Lib.Wire

namespace Umqtt

open Effects Wire

structure Buffer where
  buffer : List UInt8
  used : Nat
  deriving DecidableEq

namespace Buffer

variable {ε : Type}

def new (buffer : List UInt8) : Buffer := { buffer, used := 0 }

def capacity (self : Buffer) : Nat := self.buffer.length

def reset (self : Buffer) : Buffer := { self with used := 0 }

def advance (n : Nat) (self : Buffer) : Buffer := { self with used := self.used + n }

def usedSlice (self : Buffer) : Outcome ε (List UInt8) := slice self.buffer 0 self.used

/-- The bytes of `unused_slice_mut`. -/
def unusedSlice (self : Buffer) : Outcome ε (List UInt8) :=
  slice self.buffer self.used self.buffer.length

/-- The buffer behind a write of `bytes` to its unused part. -/
def storeUnused (bytes : List UInt8) (self : Buffer) : Buffer :=
  { self with buffer := self.buffer.take self.used ++ bytes }

def removePrefix (len : Nat) : Act Buffer ε Unit := fun self =>
  if len ≥ self.used then
    (.ok (), { self with used := 0 })
  else if self.used ≤ self.buffer.length then
    -- `copy_within(len..self.used, 0)`
    (.ok (), { buffer := overwrite self.buffer 0 ((self.buffer.take self.used).drop len)
               used := self.used - len })
  else
    (.panic, self)

/-! ### The bytes in the buffer -/

/-- The received bytes in the buffer. -/
def content (self : Buffer) : List UInt8 := self.buffer.take self.used

/-- The used part is inside the slice. -/
def Valid (self : Buffer) : Prop := self.used ≤ self.buffer.length

variable {self : Buffer}

theorem length_content (h : self.Valid) : self.content.length = self.used := by
  rw [content, List.length_take]
  exact Nat.min_eq_left h

theorem usedSlice_eq (h : self.Valid) : (self.usedSlice : Outcome ε _) = .ok self.content :=
  slice_zero h

theorem usedSlice_of_not (h : ¬self.Valid) : (self.usedSlice : Outcome ε _) = .panic := by
  rw [usedSlice, slice, if_neg]
  exact fun hle => h hle.2

theorem unusedSlice_eq (h : self.Valid) :
    (self.unusedSlice : Outcome ε _) = .ok (self.buffer.drop self.used) := slice_to_end h

theorem unusedSlice_of_not (h : ¬self.Valid) : (self.unusedSlice : Outcome ε _) = .panic := by
  rw [unusedSlice, slice, if_neg]
  exact fun hle => h hle.1

section Store

variable {bytes : List UInt8} (h : self.Valid)

include h

theorem content_storeUnused : (self.storeUnused bytes).content = self.content := by
  show (self.buffer.take self.used ++ bytes).take self.used = self.buffer.take self.used
  have hlen : (self.buffer.take self.used).length = self.used := length_content h
  rw [List.take_append_of_le_length (by omega), List.take_of_length_le (by omega)]

/-- Bytes that were stored are in the buffer once it is advanced over them. -/
theorem content_advance (n : Nat) :
    ((self.storeUnused bytes).advance n).content = self.content ++ bytes.take n := by
  show (self.buffer.take self.used ++ bytes).take (self.used + n) =
    self.buffer.take self.used ++ bytes.take n
  have hlen : (self.buffer.take self.used).length = self.used := length_content h
  have htake := @List.take_length_add_append _ (self.buffer.take self.used) bytes n
  rwa [hlen] at htake

variable (hb : bytes.length = self.capacity - self.used)

include hb

theorem capacity_storeUnused : (self.storeUnused bytes).capacity = self.capacity := by
  have hv : self.used ≤ self.buffer.length := h
  show (self.buffer.take self.used ++ bytes).length = self.buffer.length
  rw [List.length_append, List.length_take, hb, capacity]
  omega

theorem valid_storeUnused : (self.storeUnused bytes).Valid := by
  show self.used ≤ (self.storeUnused bytes).capacity
  rw [capacity_storeUnused h hb]
  exact h

theorem valid_advance {n : Nat} :
    ((self.storeUnused bytes).advance n).Valid ↔ n ≤ bytes.length := by
  show self.used + n ≤ (self.storeUnused bytes).capacity ↔ _
  have hv : self.used ≤ self.capacity := h
  rw [capacity_storeUnused h hb]
  omega

end Store

/-- Removing a prefix drops that many bytes, or all there are. -/
theorem removePrefix_spec (h : self.Valid) (len : Nat) :
    ∃ b, (removePrefix len : Act Buffer ε Unit) self = (.ok (), b) ∧ b.Valid ∧
      b.content = self.content.drop len ∧ b.capacity = self.capacity := by
  have hv : self.used ≤ self.buffer.length := h
  have hlen := length_content h
  by_cases hle : len ≥ self.used
  · refine ⟨{ self with used := 0 }, if_pos hle, Nat.zero_le _, ?_, rfl⟩
    show [] = self.content.drop len
    rw [List.drop_eq_nil_of_le (by omega)]
  · have hc : ((self.buffer.take self.used).drop len).length = self.used - len := by
      rw [List.length_drop, List.length_take]
      omega
    have hcap : (overwrite self.buffer 0 ((self.buffer.take self.used).drop len)).length =
        self.buffer.length := length_overwrite (by omega)
    refine ⟨_, (if_neg hle).trans (if_pos hv), ?_, ?_, hcap⟩
    · show self.used - len ≤ _
      rw [hcap]
      omega
    · show (overwrite self.buffer 0 _).take (self.used - len) = _
      have ht := @take_overwrite _ self.buffer 0 ((self.buffer.take self.used).drop len)
        (by omega)
      rw [Nat.zero_add, hc] at ht
      rw [ht]
      rfl

end Buffer

end Umqtt
