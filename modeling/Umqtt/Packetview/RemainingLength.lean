/-
Umqtt/Packetview/RemainingLength.lean

The remaining length of a packet, both ways (`write_remaining_length` and
`length` in `packetview/mod.rs`).

The writer divides by 128 and the reader shifts by seven bits.  They meet at the
base-128 forms of a number, of which the writer takes the shortest (`codec`).
The reader takes any form of at most four bytes, and of what is none it says
which of the two reasons holds (`measured`): four bytes that go on, or too few
bytes.
-/
import Umqtt.Packetview.Fields

namespace Umqtt

open Effects Wire

/-- The continuation bit, at position 7. -/
def Continues (byte : UInt8) : Prop := byte.toNat &&& 0x80 ≠ 0

theorem continues_iff {byte : UInt8} : Continues byte ↔ 128 ≤ byte.toNat := by
  rw [Continues, ne_eq, and_0x80 byte.toNat_lt, Nat.not_lt]

/-! ### Writing -/

/-- `bytes` is the shortest base-128 encoding of `len`, of one to four bytes; it
is what the writer appends if there is room for it, and the reader gets `len`
back from it, whatever follows. -/
structure Encoding (len : Nat) (bytes : List UInt8) : Prop where
  terminated : Terminated bytes
  value : value128 bytes = len
  shortest : ∀ bytes', Terminated bytes' → value128 bytes' = len → bytes.length ≤ bytes'.length
  length_pos : 1 ≤ bytes.length
  length_le : bytes.length ≤ 4
  write : ∀ w : WriteCursor, bytes.length ≤ w.room →
    writeRemainingLength len w = (.ok bytes.length, w.extend bytes)
  read : ∀ suffix, length (bytes ++ suffix) = .ok (bytes.length, len)

theorem codec {len : Nat} (h : len ≤ 268435455) : Encoding len (base128 len) := by
  have ht := terminated_base128 len
  have h4 : (base128 len).length ≤ 4 := length_base128_le (k := 3) (by omega)
  exact {
    terminated := ht
    value := value128_base128 len
    shortest := fun bytes' ht' hv => length_base128_le_of_terminated ht' hv.ge
    length_pos := List.length_pos_iff.mpr ht.ne_nil
    length_le := h4
    write := fun w hw => (emits_writeRemainingLength h w).1 hw
    read := fun suffix => by rw [length_terminated suffix ht h4, value128_base128] }

/-- Only a length beyond the limit is refused as too long, whatever the room. -/
theorem writeRemainingLength_eq_tooLong {len : Nat} {w : WriteCursor} :
    (writeRemainingLength len w).1 = .err .payloadTooLong ↔ 268435455 < len := by
  constructor
  · intro hw
    apply Nat.lt_of_not_le
    intro hle
    -- within the limit the writer succeeds or runs out of room
    obtain ⟨hfit, hfull⟩ := emits_writeRemainingLength hle w
    by_cases hroom : (base128 len).length ≤ w.room
    · rw [hfit hroom] at hw
      cases hw
    · obtain ⟨w', hw', -⟩ := hfull (Nat.lt_of_not_le hroom)
      rw [hw'] at hw
      cases hw
  · intro h
    rw [writeRemainingLength, if_pos h]
    rfl

/-! ### Reading -/

/-- What `length` makes of a stream. -/
inductive Measured : List UInt8 → Outcome Error (Nat × Nat) → Prop where
  | whole {bs rest : List UInt8} (ht : Terminated bs) (h4 : bs.length ≤ 4) :
      Measured (bs ++ rest) (.ok (bs.length, value128 bs))
  | overlong {bs rest : List UInt8} (h4 : bs.length = 4) (hc : ∀ b ∈ bs, Continues b) :
      Measured (bs ++ rest) (.err .malformedRemainingLength)
  | cut {bs : List UInt8} (h4 : bs.length < 4) (hc : ∀ b ∈ bs, Continues b) :
      Measured bs (.err (.needMoreData 1))

theorem measured (stream : List UInt8) : Measured stream (length stream) := by
  have hcontinues : ∀ {bs : List UInt8}, (∀ b ∈ bs, 128 ≤ b.toNat) → ∀ b ∈ bs, Continues b :=
    fun h b hb => continues_iff.mpr (h b hb)
  rcases terminated_or_continued stream 4 with
    ⟨bs, rest, rfl, ht, h4⟩ | ⟨bs, rest, rfl, h4, hc⟩ | ⟨h4, hc⟩
  · rw [length_terminated rest ht h4]
    exact .whole ht h4
  · rw [length_overlong rest h4 hc]
    exact .overlong h4 (hcontinues hc)
  · rw [length_cut h4 hc]
    exact .cut h4 (hcontinues hc)

/-- What a caller of `length` can rely on: it comes to an end, with a number that
fits 28 bits and the bytes it was read from, or with the error that says what is
wrong with the bytes. -/
structure Reading (stream : List UInt8) : Prop where
  ends : (∃ count len, length stream = .ok (count, len)) ∨
    length stream = .err .malformedRemainingLength ∨ ∃ n, length stream = .err (.needMoreData n)
  value : ∀ count len, length stream = .ok (count, len) →
    len ≤ 268435455 ∧ count ≤ 4 ∧ count ≤ stream.length ∧
      Terminated (stream.take count) ∧ value128 (stream.take count) = len
  malformed : length stream = .err .malformedRemainingLength ↔
    4 ≤ stream.length ∧ ∀ b ∈ stream.take 4, Continues b
  needMoreData : (∃ n, length stream = .err (.needMoreData n)) ↔
    stream.length < 4 ∧ ∀ b ∈ stream, Continues b

/-- A number of at most four bytes ends within the first four of the stream. -/
theorem not_continues_of_terminated {bs : List UInt8} (rest : List UInt8) (ht : Terminated bs)
    (h4 : bs.length ≤ 4) : ∃ b ∈ (bs ++ rest).take 4, ¬Continues b := by
  obtain ⟨b, hb, hlt⟩ := ht.exists_lt
  refine ⟨b, ?_, ?_⟩
  · rw [List.take_append, List.take_of_length_le h4]
    exact List.mem_append_left _ hb
  · rw [continues_iff]
    omega

theorem Measured.reading {stream : List UInt8} (h : Measured stream (length stream)) :
    Reading stream := by
  generalize hr : length stream = r at h
  cases h with
  | @whole bs rest ht h4 =>
    obtain ⟨b, hb, hstop⟩ := not_continues_of_terminated rest ht h4
    constructor
    · exact .inl ⟨_, _, hr⟩
    · intro count len hok
      rw [hr] at hok
      cases hok
      have hlt := @value128_lt bs
      have hpow : 128 ^ bs.length ≤ 128 ^ 4 := Nat.pow_le_pow_right (by decide) h4
      rw [List.take_left, List.length_append]
      exact ⟨by omega, h4, Nat.le_add_right _ _, ht, rfl⟩
    · rw [hr]
      apply iff_of_false nofun
      rintro ⟨-, hall⟩
      exact hstop (hall b hb)
    · rw [hr]
      apply iff_of_false nofun
      rintro ⟨-, hall⟩
      exact hstop (hall b (List.mem_of_mem_take hb))
  | @overlong bs rest h4 hc =>
    have hlen : 4 ≤ (bs ++ rest).length := by
      rw [List.length_append]
      omega
    constructor
    · exact .inr (.inl hr)
    · intro count len hok
      rw [hr] at hok
      cases hok
    · refine iff_of_true hr ⟨hlen, ?_⟩
      rw [← h4, List.take_left]
      exact hc
    · rw [hr]
      apply iff_of_false nofun
      rintro ⟨hlt, -⟩
      exact absurd hlt (Nat.not_lt_of_le hlen)
  | cut h4 hc =>
    constructor
    · exact .inr (.inr ⟨1, hr⟩)
    · intro count len hok
      rw [hr] at hok
      cases hok
    · rw [hr]
      apply iff_of_false nofun
      rintro ⟨hle, -⟩
      exact absurd h4 (Nat.not_lt_of_le hle)
    · exact iff_of_true ⟨1, hr⟩ ⟨h4, hc⟩

/-- The codec of remaining lengths. -/
theorem remaining_length_codec :
    (∀ (len : Nat) (w : WriteCursor),
      (writeRemainingLength len w).1 = .err .payloadTooLong ↔ 268435455 < len) ∧
    (∀ len, len ≤ 268435455 → ∃ bytes, Encoding len bytes) ∧
    ∀ stream, Reading stream :=
  ⟨fun _ _ => writeRemainingLength_eq_tooLong, fun _ h => ⟨_, codec h⟩,
    fun stream => (measured stream).reading⟩

/-- A length of two bytes. -/
theorem remaining_length_codec_321 :
    (∃ bytes, Encoding 321 bytes) ∧ Reading [0xC1, 0x02, 0xFF] :=
  ⟨remaining_length_codec.2.1 321 (by decide), remaining_length_codec.2.2 _⟩

example : length [0xC1, 0x02, 0xFF] = .ok (2, 321) := by decide

end Umqtt
