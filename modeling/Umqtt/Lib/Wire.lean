/-
Umqtt/Lib/Wire.lean

Bytes on a wire: 16-bit numbers in network order, numbers in base 128 with a
continuation bit, and output buffers that are filled from the front.

A writer works on a `Filled` buffer.  Almost every writer only appends, and
`Emits full x bs a` says so in one line: `x` appends `bs` and returns `a`
whenever `bs` fits, and fails with `full` whenever it does not.  Appending
writers compose (`Emits.bind`), so that the byte string a long writer produces
is read off its parts, and the failure for lack of room is proved once.

A writer that goes back to fill in a length or a flags byte is one that appends
with these bytes already in place (`writes_patch`, `Filled.patchSlice_extend`).
A writer in the hands of a caller, who may go on behind an error, is `Atomic` if
each of its methods appends or leaves the buffer alone.
-/
import Mathlib.Algebra.Group.Nat.Defs
import Mathlib.Tactic.Common
import Umqtt.Lib.Dialogue
import Umqtt.Lib.Loops

namespace Wire

open Effects

/-! ### Numbers in network order -/

/-- The two bytes of a 16-bit number, the high one first. -/
def toBeBytes (n : UInt16) : List UInt8 :=
  [UInt8.ofNat (n.toNat / 256), UInt8.ofNat (n.toNat % 256)]

def fromBeBytes (hi lo : UInt8) : UInt16 :=
  UInt16.ofNat (hi.toNat * 256 + lo.toNat)

@[simp] theorem length_toBeBytes (n : UInt16) : (toBeBytes n).length = 2 := rfl

@[simp] theorem fromBeBytes_toBeBytes (n : UInt16) :
    fromBeBytes (UInt8.ofNat (n.toNat / 256)) (UInt8.ofNat (n.toNat % 256)) = n := by
  have hn := n.toNat_lt
  apply UInt16.toNat_inj.mp
  simp only [fromBeBytes, UInt16.toNat_ofNat', UInt8.toNat_ofNat']
  omega

@[simp] theorem toNat_fromBeBytes (hi lo : UInt8) :
    (fromBeBytes hi lo).toNat = hi.toNat * 256 + lo.toNat := by
  have h₁ := hi.toNat_lt
  have h₂ := lo.toNat_lt
  simp only [fromBeBytes, UInt16.toNat_ofNat']
  omega

@[simp] theorem toBeBytes_fromBeBytes (hi lo : UInt8) :
    toBeBytes (fromBeBytes hi lo) = [hi, lo] := by
  have h₁ := hi.toNat_lt
  have h₂ := lo.toNat_lt
  simp only [toBeBytes, toNat_fromBeBytes, List.cons.injEq, and_true]
  constructor <;> apply UInt8.toNat_inj.mp <;> rw [UInt8.toNat_ofNat'] <;> omega

theorem toBeBytes_inj {m n : UInt16} : toBeBytes m = toBeBytes n ↔ m = n := by
  refine ⟨fun h => ?_, fun h => h ▸ rfl⟩
  simp only [toBeBytes, List.cons.injEq, and_true] at h
  rw [← fromBeBytes_toBeBytes m, h.1, h.2, fromBeBytes_toBeBytes]

/-! ### Fields with a length -/

/-- A field behind its 16-bit length. -/
def lenPrefixed (bs : List UInt8) : List UInt8 :=
  toBeBytes (UInt16.ofNat bs.length) ++ bs

@[simp] theorem length_lenPrefixed (bs : List UInt8) :
    (lenPrefixed bs).length = 2 + bs.length := by
  simp [lenPrefixed]

theorem toNat_ofNat_length {bs : List UInt8} (h : bs.length ≤ 65535) :
    (UInt16.ofNat bs.length).toNat = bs.length := by
  rw [UInt16.toNat_ofNat']
  omega

/-! ### Numbers in base 128 -/

/-- The shortest base-128 form of `n`: seven bits a byte, low ones first, with
the top bit set on every byte but the last. -/
def base128 (n : Nat) : List UInt8 :=
  if n < 128 then [UInt8.ofNat n] else UInt8.ofNat (n % 128 + 128) :: base128 (n / 128)
termination_by n
decreasing_by omega

/-- The number some base-128 bytes stand for. -/
def value128 : List UInt8 → Nat
  | [] => 0
  | b :: bs => b.toNat % 128 + 128 * value128 bs

/-- A base-128 number and nothing after it: the top bit is set on every byte
but the last. -/
def Terminated : List UInt8 → Prop
  | [] => False
  | [b] => b.toNat < 128
  | b :: bs => 128 ≤ b.toNat ∧ Terminated bs

theorem base128_of_lt {n : Nat} (h : n < 128) : base128 n = [UInt8.ofNat n] := by
  rw [base128, if_pos h]

theorem Terminated.cons {b : UInt8} {bs : List UInt8} (hb : 128 ≤ b.toNat)
    (hbs : Terminated bs) : Terminated (b :: bs) := by
  cases bs with
  | nil => exact hbs.elim
  | cons c cs => exact ⟨hb, hbs⟩

theorem Terminated.ne_nil {bs : List UInt8} (h : Terminated bs) : bs ≠ [] := by
  rintro rfl
  exact h

theorem terminated_base128 (n : Nat) : Terminated (base128 n) := by
  induction n using Nat.strongRecOn with
  | ind n ih =>
    rw [base128]
    split
    · show (UInt8.ofNat n).toNat < 128
      rw [UInt8.toNat_ofNat']
      omega
    · refine Terminated.cons ?_ (ih _ (by omega))
      rw [UInt8.toNat_ofNat']
      omega

@[simp] theorem value128_base128 (n : Nat) : value128 (base128 n) = n := by
  induction n using Nat.strongRecOn with
  | ind n ih =>
    rw [base128]
    split
    · simp only [value128, UInt8.toNat_ofNat']
      omega
    · simp only [value128, UInt8.toNat_ofNat', ih _ (by omega : n / 128 < n)]
      omega

theorem length_base128_le {n : Nat} : ∀ {k : Nat}, n < 128 ^ (k + 1) →
    (base128 n).length ≤ k + 1 := by
  induction n using Nat.strongRecOn with
  | ind n ih =>
    intro k hn
    rw [base128]
    split
    · simp
    · rename_i hbig
      cases k with
      | zero => omega
      | succ k =>
        have hdiv : n / 128 < 128 ^ (k + 1) := by
          rw [Nat.div_lt_iff_lt_mul (by decide)]
          rwa [Nat.pow_succ] at hn
        have := ih (n / 128) (by omega) hdiv
        simp only [List.length_cons]
        omega

theorem value128_lt {bs : List UInt8} : value128 bs < 128 ^ bs.length := by
  induction bs with
  | nil => decide
  | cons b bs ih =>
    rw [value128, List.length_cons, Nat.pow_succ]
    omega

/-- No form of a number, or of a larger one, has fewer bytes than the shortest
form of it. -/
theorem length_base128_le_of_terminated {bs : List UInt8} {n : Nat} (h : Terminated bs)
    (hn : n ≤ value128 bs) : (base128 n).length ≤ bs.length := by
  have hpos := List.length_pos_iff.mpr h.ne_nil
  obtain ⟨k, hk⟩ : ∃ k, bs.length = k + 1 := ⟨bs.length - 1, by omega⟩
  have hlt := @value128_lt bs
  rw [hk] at hlt ⊢
  exact length_base128_le (Nat.lt_of_le_of_lt hn hlt)

/-- The last byte of a number ends it. -/
theorem Terminated.exists_lt {bs : List UInt8} (h : Terminated bs) : ∃ b ∈ bs, b.toNat < 128 := by
  induction bs with
  | nil => exact h.elim
  | cons b bs ih =>
    cases bs with
    | nil => exact ⟨b, List.mem_singleton_self b, h⟩
    | cons c cs =>
      obtain ⟨d, hd, hlt⟩ := ih h.2
      exact ⟨d, List.mem_cons_of_mem b hd, hlt⟩

/-- A stream starts with a number of at most `m` bytes, or with `m` bytes that go
on, or it ends before that. -/
theorem terminated_or_continued (stream : List UInt8) : ∀ m : Nat,
    (∃ bs rest, stream = bs ++ rest ∧ Terminated bs ∧ bs.length ≤ m) ∨
    (∃ bs rest, stream = bs ++ rest ∧ bs.length = m ∧ ∀ b ∈ bs, 128 ≤ b.toNat) ∨
    (stream.length < m ∧ ∀ b ∈ stream, 128 ≤ b.toNat) := by
  induction stream with
  | nil =>
    rintro (_ | m)
    · exact .inr (.inl ⟨[], [], rfl, rfl, List.forall_mem_nil _⟩)
    · exact .inr (.inr ⟨Nat.succ_pos m, List.forall_mem_nil _⟩)
  | cons b stream ih =>
    rintro (_ | m)
    · exact .inr (.inl ⟨[], b :: stream, rfl, rfl, List.forall_mem_nil _⟩)
    · by_cases hb : b.toNat < 128
      · exact .inl ⟨[b], stream, rfl, hb, Nat.succ_le_succ (Nat.zero_le m)⟩
      · have hb' : 128 ≤ b.toNat := Nat.le_of_not_lt hb
        rcases ih m with ⟨bs, rest, hs, ht, hm⟩ | ⟨bs, rest, hs, hm, hc⟩ | ⟨hm, hc⟩
        · exact .inl ⟨b :: bs, rest, congrArg (b :: ·) hs, ht.cons hb', Nat.succ_le_succ hm⟩
        · exact .inr (.inl ⟨b :: bs, rest, congrArg (b :: ·) hs, congrArg (· + 1) hm,
            List.forall_mem_cons.mpr ⟨hb', hc⟩⟩)
        · exact .inr (.inr ⟨Nat.succ_lt_succ hm, List.forall_mem_cons.mpr ⟨hb', hc⟩⟩)

/-! ### Strings -/

/-- The UTF-8 bytes of a string. -/
def asBytes (s : String) : List UInt8 := s.toByteArray.data.toList

/-- The string that some bytes are the UTF-8 form of. -/
def fromUtf8 (bs : List UInt8) : Option String := String.fromUTF8? ⟨bs.toArray⟩

@[simp] theorem fromUtf8_eq_some {bs : List UInt8} {s : String} :
    fromUtf8 bs = some s ↔ asBytes s = bs := by
  constructor
  · intro h
    simp only [fromUtf8, String.fromUTF8?, Option.dite_none_right_eq_some] at h
    obtain ⟨hv, h⟩ := h
    obtain rfl := Option.some.inj h
    simp [asBytes, String.fromUTF8]
  · rintro rfl
    have hb : (⟨(asBytes s).toArray⟩ : ByteArray) = s.toByteArray := by
      simp [asBytes]
    rw [fromUtf8, hb, String.fromUTF8?, dif_pos s.isValidUTF8]
    rfl

theorem fromUtf8_asBytes (s : String) : fromUtf8 (asBytes s) = some s :=
  fromUtf8_eq_some.mpr rfl

@[simp] theorem asBytes_append (s t : String) : asBytes (s ++ t) = asBytes s ++ asBytes t := by
  simp [asBytes]

theorem asBytes_inj {s t : String} : asBytes s = asBytes t ↔ s = t := by
  refine ⟨fun h => ?_, fun h => h ▸ rfl⟩
  have hs := fromUtf8_asBytes s
  rw [h, fromUtf8_asBytes] at hs
  exact (Option.some.inj hs).symm

/-! ### Checked access -/

section Checked

variable {β ε : Type}

/-- The items `l[i..j]`; a panic when the range is not inside `l`. -/
def slice (l : List β) (i j : Nat) : Outcome ε (List β) :=
  if i ≤ j ∧ j ≤ l.length then .ok ((l.take j).drop i) else .panic

/-- The item `l[i]`; a panic when there is none. -/
def index (l : List β) (i : Nat) : Outcome ε β :=
  match l[i]? with
  | some b => .ok b
  | none => .panic

theorem slice_zero {l : List β} {j : Nat} (h : j ≤ l.length) :
    (slice l 0 j : Outcome ε (List β)) = .ok (l.take j) := by
  simp [slice, h]

theorem slice_to_end {l : List β} {i : Nat} (h : i ≤ l.length) :
    (slice l i l.length : Outcome ε (List β)) = .ok (l.drop i) := by
  simp [slice, h]

theorem slice_middle (pre l post : List β) :
    (slice (pre ++ (l ++ post)) pre.length (pre.length + l.length) : Outcome ε (List β)) =
      .ok l := by
  have hle : pre.length ≤ pre.length + l.length ∧
      pre.length + l.length ≤ (pre ++ (l ++ post)).length := by
    simp only [List.length_append]
    omega
  rw [slice, if_pos hle, List.take_length_add_append, List.take_left, List.drop_left]

end Checked

/-! ### Overwriting a stretch of a buffer -/

section Overwrite

variable {β : Type}

/-- `l` with the items from index `i` on replaced by `bs`. -/
def overwrite (l : List β) (i : Nat) (bs : List β) : List β :=
  l.take i ++ bs ++ l.drop (i + bs.length)

theorem length_overwrite {l : List β} {i : Nat} {bs : List β} (h : i + bs.length ≤ l.length) :
    (overwrite l i bs).length = l.length := by
  simp only [overwrite, List.length_append, List.length_take, List.length_drop]
  omega

theorem take_overwrite {l : List β} {i : Nat} {bs : List β} (h : i + bs.length ≤ l.length) :
    (overwrite l i bs).take (i + bs.length) = l.take i ++ bs := by
  have hlen : (l.take i ++ bs).length = i + bs.length := by
    simp only [List.length_append, List.length_take]
    omega
  rw [overwrite, List.take_append_of_le_length (by omega), ← hlen, List.take_length]

theorem drop_overwrite {l : List β} {i : Nat} {bs : List β} (h : i + bs.length ≤ l.length) :
    (overwrite l i bs).drop (i + bs.length) = l.drop (i + bs.length) := by
  have hlen : (l.take i ++ bs).length = i + bs.length := by
    simp only [List.length_append, List.length_take]
    omega
  rw [overwrite, List.drop_append_of_le_length (by omega), ← hlen, List.drop_length,
    List.nil_append]

theorem take_overwrite_of_le {l : List β} {i k : Nat} {bs : List β} (hk : k ≤ i)
    (hi : i ≤ l.length) : (overwrite l i bs).take k = l.take k := by
  rw [overwrite, List.append_assoc,
    List.take_append_of_le_length (by rw [List.length_take]; omega), List.take_take,
    Nat.min_eq_left hk]

/-- Rewriting the front of what was written. -/
theorem overwrite_overwrite {l : List β} {i : Nat} {bs cs ds : List β}
    (hi : i ≤ l.length) (hl : bs.length = cs.length) :
    overwrite (overwrite l i (bs ++ ds)) i cs = overwrite l i (cs ++ ds) := by
  have hpre : (l.take i ++ bs).length = i + cs.length := by
    rw [List.length_append, List.length_take, hl]
    omega
  have htake : (overwrite l i (bs ++ ds)).take i = l.take i :=
    take_overwrite_of_le (Nat.le_refl i) hi
  have hdrop : (overwrite l i (bs ++ ds)).drop (i + cs.length) =
      ds ++ l.drop (i + (bs ++ ds).length) := by
    rw [overwrite, ← List.append_assoc, List.append_assoc, ← hpre, List.drop_left]
  rw [overwrite, htake, hdrop, overwrite]
  simp [hl]

end Overwrite

/-! ### Buffers filled from the front -/

/-- A buffer of which the first `len` items are written. -/
structure Filled (β : Type) where
  buffer : List β
  len : Nat
  le : len ≤ buffer.length

namespace Filled

variable {β : Type}

/-- A buffer with nothing written yet, whatever it contains. -/
def empty (buffer : List β) : Filled β := ⟨buffer, 0, Nat.zero_le _⟩

def capacity (w : Filled β) : Nat := w.buffer.length

def room (w : Filled β) : Nat := w.capacity - w.len

def written (w : Filled β) : List β := w.buffer.take w.len

/-- `buffer[i] = b`: a panic when there is no such index. -/
def patch {ε : Type} (i : Nat) (b : β) : Act (Filled β) ε Unit := fun w =>
  if i < w.capacity then
    (.ok (), ⟨w.buffer.set i b, w.len, by rw [List.length_set]; exact w.le⟩)
  else (.panic, w)

/-- `buffer[i..i + bs.len()].copy_from_slice(bs)`: a panic when there is no such
range. -/
def patchSlice {ε : Type} (i : Nat) (bs : List β) : Act (Filled β) ε Unit := fun w =>
  if h : i + bs.length ≤ w.capacity then
    (.ok (), ⟨overwrite w.buffer i bs, w.len, by rw [length_overwrite h]; exact w.le⟩)
  else (.panic, w)

/-- Copy `bs` behind the written part, if it fits. -/
def extend (w : Filled β) (bs : List β) : Filled β :=
  if h : bs.length ≤ w.room then
    { buffer := overwrite w.buffer w.len bs
      len := w.len + bs.length
      le := by
        have := w.le
        rw [room, capacity] at h
        rw [length_overwrite (by omega)]
        omega }
  else w

@[ext] protected theorem ext {w w' : Filled β} (hb : w.buffer = w'.buffer)
    (hl : w.len = w'.len) : w = w' := by
  cases w; cases w'; cases hb; cases hl; rfl

variable {w : Filled β} {bs cs : List β}

@[simp] theorem length_written (w : Filled β) : w.written.length = w.len := by
  rw [written, List.length_take, Nat.min_eq_left w.le]

theorem len_add_le (h : bs.length ≤ w.room) : w.len + bs.length ≤ w.buffer.length := by
  have := w.le
  rw [room, capacity] at h
  omega

theorem buffer_extend (h : bs.length ≤ w.room) :
    (w.extend bs).buffer = overwrite w.buffer w.len bs := by
  rw [extend, dif_pos h]

theorem len_extend (h : bs.length ≤ w.room) : (w.extend bs).len = w.len + bs.length := by
  rw [extend, dif_pos h]

theorem written_extend (h : bs.length ≤ w.room) : (w.extend bs).written = w.written ++ bs := by
  rw [written, buffer_extend h, len_extend h, take_overwrite (len_add_le h), written]

@[simp] theorem capacity_extend (w : Filled β) (bs : List β) :
    (w.extend bs).capacity = w.capacity := by
  by_cases h : bs.length ≤ w.room
  · rw [capacity, buffer_extend h, length_overwrite (len_add_le h), capacity]
  · rw [extend, dif_neg h]

theorem room_extend (h : bs.length ≤ w.room) : (w.extend bs).room = w.room - bs.length := by
  rw [room, capacity_extend, len_extend h, room]
  omega

theorem extend_extend (h : bs.length + cs.length ≤ w.room) :
    (w.extend bs).extend cs = w.extend (bs ++ cs) := by
  have hbs : bs.length ≤ w.room := by omega
  have hcs : cs.length ≤ (w.extend bs).room := by rw [room_extend hbs]; omega
  have hbc : (bs ++ cs).length ≤ w.room := by rw [List.length_append]; exact h
  have hle := len_add_le hbs
  ext1
  · rw [buffer_extend hcs, buffer_extend hbs, buffer_extend hbc, len_extend hbs]
    rw [overwrite, take_overwrite hle, ← List.drop_drop, drop_overwrite hle, List.drop_drop]
    simp only [overwrite, List.length_append, List.append_assoc, Nat.add_assoc]
  · rw [len_extend hcs, len_extend hbs, len_extend hbc, List.length_append, Nat.add_assoc]

@[simp] theorem extend_nil (w : Filled β) : w.extend [] = w := by
  ext1
  · rw [buffer_extend (Nat.zero_le _)]
    simp [overwrite]
  · rw [len_extend (Nat.zero_le _)]
    rfl

/-- Patching the front of what was appended last. -/
theorem patchSlice_extend {ε : Type} {ds : List β} (hl : bs.length = cs.length)
    (h : (bs ++ ds).length ≤ w.room) :
    (patchSlice w.len cs : Act (Filled β) ε Unit) (w.extend (bs ++ ds)) =
      (.ok (), w.extend (cs ++ ds)) := by
  have h' : (cs ++ ds).length ≤ w.room := by
    rw [List.length_append] at h ⊢
    omega
  have hle := len_add_le h
  have hcap : w.len + cs.length ≤ (w.extend (bs ++ ds)).capacity := by
    rw [capacity_extend, capacity]
    rw [List.length_append] at hle
    omega
  rw [patchSlice, dif_pos hcap]
  refine congrArg (Prod.mk _) (Filled.ext ?_ ?_)
  · show overwrite (w.extend (bs ++ ds)).buffer w.len cs = _
    rw [buffer_extend h, buffer_extend h', overwrite_overwrite w.le hl]
  · show (w.extend (bs ++ ds)).len = _
    rw [len_extend h, len_extend h', List.length_append, List.length_append, hl]

/-- Patching two items one by one. -/
theorem patch_patch {ε : Type} {i : Nat} {b c : β} (h : i + 2 ≤ w.capacity) :
    (do patch i b
        patch (i + 1) c : Act (Filled β) ε Unit) w = patchSlice i [b, c] w := by
  have hset : (w.buffer.set i b).set (i + 1) c = overwrite w.buffer i [b, c] := by
    rw [capacity] at h
    apply List.ext_getElem?
    intro k
    rw [overwrite, List.append_assoc]
    have htake : (w.buffer.take i).length = i := by
      rw [List.length_take]
      omega
    rcases Nat.lt_or_ge k i with hk | hk
    · rw [List.getElem?_append_left (by omega), List.getElem?_set_ne (by omega),
        List.getElem?_set_ne (by omega), List.getElem?_take_of_lt hk]
    · rw [List.getElem?_append_right (by omega), htake]
      obtain ⟨j, rfl⟩ : ∃ j, k = i + j := ⟨k - i, by omega⟩
      rw [Nat.add_sub_cancel_left]
      match j with
      | 0 => simp [show i < w.buffer.length by omega]
      | 1 => simp [show i + 1 < w.buffer.length by omega]
      | j + 2 =>
        rw [List.getElem?_set_ne (by omega), List.getElem?_set_ne (by omega),
          List.getElem?_append_right (Nat.le_add_left 2 j), List.getElem?_drop]
        show _ = w.buffer[i + 2 + (j + 2 - 2)]?
        rw [show i + 2 + (j + 2 - 2) = i + (j + 2) by omega]
  have h₁ : i < w.capacity := by omega
  have h₂ : i + 1 < (w.buffer.set i b).length := by
    rw [List.length_set]
    exact h
  have hlen : i + [b, c].length ≤ w.capacity := h
  have hfirst : (patch i b : Act (Filled β) ε Unit) w =
      (.ok (), ⟨w.buffer.set i b, w.len, by rw [List.length_set]; exact w.le⟩) := if_pos h₁
  rw [patchSlice, dif_pos hlen, Act.bind_of_ok hfirst]
  refine (if_pos h₂).trans ?_
  exact congrArg (Prod.mk _) (Filled.ext hset rfl)

end Filled

/-! ### Writers that append -/

section Emits

variable {β ε α γ : Type}

/-- `x` appends `bs` and returns `a` when `bs` fits, and fails with `full`
when it does not. -/
def Emits (full : ε) (x : Act (Filled β) ε α) (bs : List β) (a : α) : Prop :=
  ∀ w, (bs.length ≤ w.room → x w = (.ok a, w.extend bs)) ∧
    (w.room < bs.length → ∃ w', x w = (.err full, w') ∧ w'.capacity = w.capacity)

variable {full : ε} {x : Act (Filled β) ε α} {f : α → Act (Filled β) ε γ}
  {bs cs : List β} {a : α} {c : γ}

theorem Emits.pure : Emits full (Pure.pure a : Act (Filled β) ε α) [] a := by
  refine fun w => ⟨fun _ => ?_, fun h => absurd h (Nat.not_lt_zero _)⟩
  rw [Filled.extend_nil, Act.pure_apply]

theorem Emits.bind (hx : Emits full x bs a) (hf : Emits full (f a) cs c) :
    Emits full (x >>= f) (bs ++ cs) c := by
  intro w
  by_cases hbs : bs.length ≤ w.room
  · rw [Act.bind_of_ok ((hx w).1 hbs), List.length_append]
    obtain ⟨hfit, hfull⟩ := hf (w.extend bs)
    rw [Filled.room_extend hbs] at hfit hfull
    refine ⟨fun h => ?_, fun h => ?_⟩
    · rw [hfit (by omega), Filled.extend_extend h]
    · obtain ⟨w', hw', hc⟩ := hfull (by omega)
      exact ⟨w', hw', by rw [hc, Filled.capacity_extend]⟩
  · obtain ⟨w', hw', hc⟩ := (hx w).2 (by omega)
    refine ⟨fun h => ?_, fun _ => ⟨w', Act.bind_of_err hw', hc⟩⟩
    rw [List.length_append] at h
    omega

theorem Emits.map (g : α → γ) (hx : Emits full x bs a) :
    Emits full (x >>= fun a => Pure.pure (g a)) bs (g a) := by
  have h := hx.bind (f := fun a => Pure.pure (g a)) .pure
  rwa [List.append_nil] at h

theorem Emits.forEach {f : α → Act (Filled β) ε Unit} {g : α → List β}
    (hf : ∀ a, Emits full (f a) (g a) ()) (as : List α) :
    Emits full (Act.forEach f as) (as.flatMap g) () := by
  induction as with
  | nil => exact .pure
  | cons a as ih =>
    rw [List.flatMap_cons]
    exact (hf a).bind ih

/-- The bytes may be given in any form that is provably the same. -/
theorem Emits.congr (hx : Emits full x bs a) (h : bs = cs) : Emits full x cs a := h ▸ hx

theorem Emits.congrValue {b : α} (hx : Emits full x bs a) (h : a = b) : Emits full x bs b :=
  h ▸ hx

/-- `x` appends `bs`, if it fits, and returns how much is written by then. -/
def Fills (full : ε) (x : Act (Filled β) ε Nat) (bs : List β) : Prop :=
  ∀ w, (bs.length ≤ w.room → x w = (.ok (w.len + bs.length), w.extend bs)) ∧
    (w.room < bs.length → ∃ w', x w = (.err full, w') ∧ w'.capacity = w.capacity)

theorem Fills.congr {x : Act (Filled β) ε Nat} (hx : Fills full x bs) (h : bs = cs) :
    Fills full x cs := h ▸ hx

theorem Emits.bindFills {g : α → Act (Filled β) ε Nat} (hx : Emits full x bs a)
    (hg : Fills full (g a) cs) : Fills full (x >>= g) (bs ++ cs) := by
  intro w
  by_cases hbs : bs.length ≤ w.room
  · rw [Act.bind_of_ok ((hx w).1 hbs), List.length_append]
    obtain ⟨hfit, hfull⟩ := hg (w.extend bs)
    rw [Filled.room_extend hbs] at hfit hfull
    refine ⟨fun h => ?_, fun h => ?_⟩
    · rw [hfit (by omega), Filled.extend_extend h, Filled.len_extend hbs, Nat.add_assoc]
    · obtain ⟨w', hw', hc⟩ := hfull (by omega)
      exact ⟨w', hw', by rw [hc, Filled.capacity_extend]⟩
  · obtain ⟨w', hw', hc⟩ := (hx w).2 (by omega)
    refine ⟨fun h => ?_, fun _ => ⟨w', Act.bind_of_err hw', hc⟩⟩
    rw [List.length_append] at h
    omega

theorem fills_len : Fills full (Act.gets Filled.len : Act (Filled β) ε Nat) [] := by
  refine fun w => ⟨fun _ => ?_, fun h => absurd h (Nat.not_lt_zero _)⟩
  rw [Filled.extend_nil]
  rfl

/-- `write` puts `bs` at the start of a buffer and returns its length, if it
fits. -/
def Writes (full : ε) (write : Act (List β) ε Nat) (bs : List β) : Prop :=
  ∀ buf, (bs.length ≤ buf.length → write buf = (.ok bs.length, overwrite buf 0 bs)) ∧
    (buf.length < bs.length → ∃ buf', write buf = (.err full, buf') ∧
      buf'.length = buf.length)

/-- Run `x` on a buffer with nothing written. -/
def onBuffer (x : Act (Filled β) ε α) : Act (List β) ε α :=
  Act.zoom Filled.empty (fun w _ => w.buffer) x

theorem writes_onBuffer {x : Act (Filled β) ε Nat}
    (hx : ∀ buf, (bs.length ≤ buf.length →
        x (Filled.empty buf) = (.ok bs.length, (Filled.empty buf).extend bs)) ∧
      (buf.length < bs.length →
        ∃ w', x (Filled.empty buf) = (.err full, w') ∧ w'.capacity = buf.length)) :
    Writes full (onBuffer x) bs := by
  intro buf
  obtain ⟨hfit, hfull⟩ := hx buf
  refine ⟨fun h => ?_, fun h => ?_⟩
  · have hroom : bs.length ≤ (Filled.empty buf).room := h
    rw [onBuffer, Act.zoom_apply, hfit h, Filled.buffer_extend hroom]
    rfl
  · obtain ⟨w', hw', hc⟩ := hfull h
    exact ⟨w'.buffer, by rw [onBuffer, Act.zoom_apply, hw'], hc⟩

theorem Emits.writes {x : Act (Filled β) ε Nat} (hx : Emits full x bs bs.length) :
    Writes full (onBuffer x) bs :=
  writes_onBuffer fun buf => hx (Filled.empty buf)

theorem Fills.writes {x : Act (Filled β) ε Nat} (hx : Fills full x bs) :
    Writes full (onBuffer x) bs := by
  refine writes_onBuffer fun buf => ?_
  obtain ⟨hfit, hfull⟩ := hx (Filled.empty buf)
  have hlen : (Filled.empty buf).len + bs.length = bs.length := Nat.zero_add _
  rw [hlen] at hfit
  exact ⟨hfit, hfull⟩

theorem overwrite_zero {l bs : List β} : overwrite l 0 bs = bs ++ l.drop bs.length := by
  simp [overwrite]

/-- Back-patching: the item behind what `x` writes is replaced, once `y` is
done, by what `y` returned. -/
theorem writes_patch {x : Act (Filled β) ε Unit} {y : Act (Filled β) ε β} {b b' : β}
    (hx : Emits full x bs ()) (hy : Emits full y (b :: cs) b') :
    Writes full (onBuffer (do
      x
      let i ← Act.gets Filled.len
      let v ← y
      Filled.patch i v
      Act.gets Filled.len)) (bs ++ b' :: cs) := by
  intro buf
  obtain ⟨hfit, hfull⟩ := hx.bind (f := fun _ => y) hy (Filled.empty buf)
  obtain ⟨hxfit, hxfull⟩ := hx (Filled.empty buf)
  have hroom : (Filled.empty buf).room = buf.length := rfl
  have hl : (bs ++ b' :: cs).length = (bs ++ b :: cs).length := by simp
  rw [hl]
  refine ⟨fun h => ?_, fun h => ?_⟩
  · have hbs : bs.length ≤ (Filled.empty buf).room := by
      rw [List.length_append] at h
      omega
    have hxy := hfit h
    rw [Act.bind_of_ok (hxfit hbs)] at hxy
    have hb : ((Filled.empty buf).extend (bs ++ b :: cs)).buffer =
        bs ++ b :: (cs ++ buf.drop (bs ++ b :: cs).length) := by
      rw [Filled.buffer_extend h]
      show overwrite buf 0 _ = _
      rw [overwrite_zero, List.append_assoc, List.cons_append]
    have hcap : bs.length < ((Filled.empty buf).extend (bs ++ b :: cs)).capacity := by
      rw [Filled.capacity, hb, List.length_append, List.length_cons]
      omega
    have hlen : ((Filled.empty buf).extend bs).len = bs.length := by
      rw [Filled.len_extend hbs]
      exact Nat.zero_add _
    simp only [onBuffer, Act.zoom_apply, Act.bind_apply, hxfit hbs, Act.gets_apply, hxy, hlen,
      Filled.patch, if_pos hcap]
    rw [hb, Filled.len_extend h, overwrite_zero, hl]
    simp [Filled.empty]
  · by_cases hbs : bs.length ≤ buf.length
    · obtain ⟨w', hw', hc⟩ := hfull h
      rw [Act.bind_of_ok (hxfit hbs)] at hw'
      exact ⟨w'.buffer, by simp [onBuffer, Act.bind_apply, hxfit hbs, hw'], hc⟩
    · obtain ⟨w', hw', hc⟩ := hxfull (by omega)
      exact ⟨w'.buffer, by simp [onBuffer, Act.bind_apply, hw'], hc⟩

theorem Writes.of_ok {write : Act (List β) ε Nat} (hw : Writes full write bs) {buf : List β}
    {n : Nat} (h : (write buf).1 = .ok n) :
    n = bs.length ∧ bs.length ≤ buf.length ∧ (write buf).2.take n = bs := by
  by_cases hle : bs.length ≤ buf.length
  · rw [(hw buf).1 hle] at h ⊢
    obtain rfl := Outcome.ok.inj h
    have ht := @take_overwrite _ buf 0 bs (by omega)
    rw [Nat.zero_add] at ht
    exact ⟨rfl, hle, ht⟩
  · obtain ⟨buf', hb, -⟩ := (hw buf).2 (by omega)
    rw [hb] at h
    cases h

/-- It writes iff there is room for what it writes. -/
theorem Writes.ok_iff {write : Act (List β) ε Nat} (hw : Writes full write bs) (buf : List β) :
    (∃ n, (write buf).1 = .ok n) ↔ bs.length ≤ buf.length := by
  refine ⟨fun ⟨n, hn⟩ => (hw.of_ok hn).2.1, fun hle => ⟨bs.length, ?_⟩⟩
  rw [(hw buf).1 hle]

/-- What it writes is determined. -/
theorem Writes.unique {write : Act (List β) ε Nat} {cs : List β} (h : Writes full write bs)
    (h' : Writes full write cs) : bs = cs := by
  have hbs : (write (bs ++ cs)).1 = .ok bs.length := by
    rw [(h (bs ++ cs)).1 (by simp)]
  have hcs : (write (bs ++ cs)).1 = .ok cs.length := by
    rw [(h' (bs ++ cs)).1 (by simp)]
  have hlen : bs.length = cs.length := Outcome.ok.inj (hbs.symm.trans hcs)
  have htake := (h.of_ok hbs).2.2
  rw [hlen, (h'.of_ok hcs).2.2] at htake
  exact htake.symm

/-! ### Writers that always fail -/

/-- `x` fails, whatever the buffer. -/
def Refuses (x : Act (Filled β) ε α) : Prop :=
  ∀ w, ∃ e w', x w = (.err e, w') ∧ w'.capacity = w.capacity

theorem refuses_fail (e : ε) : Refuses (Act.fail e : Act (Filled β) ε α) :=
  fun w => ⟨e, w, rfl, rfl⟩

theorem Refuses.bind (hx : Refuses x) : Refuses (x >>= f) := by
  intro w
  obtain ⟨e, w', hw, hc⟩ := hx w
  exact ⟨e, w', Act.bind_of_err hw, hc⟩

/-- What is appended before the failure does not matter. -/
theorem Emits.bindRefuses (hx : Emits full x bs a) (hf : Refuses (f a)) : Refuses (x >>= f) := by
  intro w
  by_cases h : bs.length ≤ w.room
  · obtain ⟨e, w', hw, hc⟩ := hf (w.extend bs)
    refine ⟨e, w', ?_, hc.trans (Filled.capacity_extend _ _)⟩
    rw [Act.bind_of_ok ((hx w).1 h), hw]
  · obtain ⟨w', hw, hc⟩ := (hx w).2 (by omega)
    exact ⟨full, w', Act.bind_of_err hw, hc⟩

theorem Refuses.onBuffer (hx : Refuses x) (buf : List β) :
    ∃ e buf', onBuffer x buf = (.err e, buf') ∧ buf'.length = buf.length := by
  obtain ⟨e, w', hw, hc⟩ := hx (Filled.empty buf)
  exact ⟨e, w'.buffer, by rw [Wire.onBuffer, Act.zoom_apply, hw], hc⟩

end Emits

/-! ### Writers in the hands of a caller

A writer whose methods each append some bytes or leave the buffer alone leaves,
whatever a caller does with it, the concatenation of what the successful calls
appended (`Atomic.run`). -/

section Atomic

variable {β ε α Q : Type} {A : Q → Type}

/-- Each method appends its bytes or fails and leaves the buffer as it was. -/
def Atomic (handler : (q : Q) → Act (Filled β) ε (A q)) (bytes : Q → List β) : Prop :=
  ∀ q w, ((bytes q).length ≤ w.room ∧ ∃ a, handler q w = (.ok a, w.extend (bytes q))) ∨
    ∃ e, handler q w = (.err e, w)

/-- What the calls that succeeded appended, in order. -/
def added (bytes : Q → List β) (asked : List ((q : Q) × Except ε (A q))) : List β :=
  asked.flatMap fun
    | ⟨q, .ok _⟩ => bytes q
    | ⟨_, .error _⟩ => []

/-- Whatever a caller does with such methods, the buffer ends up with what the
successful calls appended. -/
theorem Atomic.run {handler : (q : Q) → Act (Filled β) ε (A q)} {bytes : Q → List β}
    (h : Atomic handler bytes) (d : Dialogue Q A ε α) (w : Filled β) :
    (added bytes (d.asked handler w)).length ≤ w.room ∧
      (d.run handler w).2 = w.extend (added bytes (d.asked handler w)) ∧
      (d.run handler w).1 ≠ .panic := by
  have hrun := d.run_induction handler
    (R := fun asked w' => (added bytes asked).length ≤ w.room ∧
      w' = w.extend (added bytes asked)) ?_ ?_ ?_ [] w ⟨Nat.zero_le _, (w.extend_nil).symm⟩
  · exact ⟨hrun.1.1, hrun.1.2, hrun.2⟩
  · rintro asked _ q a s' ⟨hle, rfl⟩ hq
    rcases h q (w.extend (added bytes asked)) with ⟨hfit, a', ha⟩ | ⟨e, he⟩
    · rw [Filled.room_extend hle] at hfit
      obtain ⟨-, rfl⟩ := Prod.mk.inj (hq.symm.trans ha)
      have hadd : added bytes (asked ++ [⟨q, .ok a⟩]) = added bytes asked ++ bytes q := by
        simp [added]
      rw [hadd, List.length_append, Filled.extend_extend (by omega)]
      exact ⟨by omega, rfl⟩
    · rw [hq] at he
      cases he
  · rintro asked _ q e s' ⟨hle, rfl⟩ hq
    have hadd : added bytes (asked ++ [⟨q, .error e⟩]) = added bytes asked := by
      simp [added]
    rcases h q (w.extend (added bytes asked)) with ⟨-, a', ha⟩ | ⟨e', he⟩
    · rw [hq] at ha
      cases ha
    · obtain ⟨-, rfl⟩ := Prod.mk.inj (hq.symm.trans he)
      exact ⟨by rw [hadd]; exact hle, by rw [hadd]⟩
  · intro q s
    rcases h q s with ⟨-, a, ha⟩ | ⟨e, he⟩
    · rw [ha]; simp
    · rw [he]; simp

/-- Methods that fail only for lack of room, called in order until one fails,
append what all of them do. -/
theorem Emits.all {full : ε} {handler : (q : Q) → Act (Filled β) ε (A q)} {bytes : Q → List β}
    (h : ∀ q w, ((bytes q).length ≤ w.room → ∃ a, handler q w = (.ok a, w.extend (bytes q))) ∧
      (w.room < (bytes q).length → ∃ w', handler q w = (.err full, w') ∧
        w'.capacity = w.capacity)) (qs : List Q) :
    Emits full ((Dialogue.all qs).run handler) (qs.flatMap bytes) () := by
  induction qs with
  | nil => exact .pure
  | cons q qs ih =>
    intro w
    obtain ⟨hfit, hfull⟩ := h q w
    rw [List.flatMap_cons, List.length_append]
    by_cases hq : (bytes q).length ≤ w.room
    · obtain ⟨a, ha⟩ := hfit hq
      have hrun : (Dialogue.all (q :: qs)).run handler w =
          (Dialogue.all qs).run handler (w.extend (bytes q)) := by
        simp only [Dialogue.all, Dialogue.run, ha]
      obtain ⟨hfit', hfull'⟩ := ih (w.extend (bytes q))
      rw [Filled.room_extend hq] at hfit' hfull'
      rw [hrun]
      refine ⟨fun hle => ?_, fun hlt => ?_⟩
      · rw [hfit' (by omega), Filled.extend_extend hle]
      · obtain ⟨w', hw', hc⟩ := hfull' (by omega)
        exact ⟨w', hw', hc.trans (Filled.capacity_extend _ _)⟩
    · obtain ⟨w', hw', hc⟩ := hfull (by omega)
      have hrun : (Dialogue.all (q :: qs)).run handler w = (.err full, w') := by
        simp only [Dialogue.all, Dialogue.run, hw']
      exact ⟨fun hle => by omega, fun _ => ⟨w', hrun, hc⟩⟩

/-- On `w`, `x` appends `bs` and returns `a`, or it fails. -/
def AppendsOrFails (x : Act (Filled β) ε α) (w : Filled β) (bs : List β) (a : α) : Prop :=
  (bs.length ≤ w.room ∧ x w = (.ok a, w.extend bs)) ∨
    ∃ e w', x w = (.err e, w') ∧ w'.capacity = w.capacity

section AppendsOrFails

variable {γ : Type} {x : Act (Filled β) ε α} {f : α → Act (Filled β) ε γ} {w : Filled β}
  {bs cs : List β} {a : α} {c : γ}

theorem AppendsOrFails.pure : AppendsOrFails (Pure.pure a : Act (Filled β) ε α) w [] a :=
  .inl ⟨Nat.zero_le _, by rw [Filled.extend_nil]; rfl⟩

theorem AppendsOrFails.len {n : Nat} (h : w.len = n) :
    AppendsOrFails (Act.gets Filled.len : Act (Filled β) ε Nat) w [] n :=
  .inl ⟨Nat.zero_le _, by rw [Filled.extend_nil, ← h]; rfl⟩

theorem AppendsOrFails.fail (e : ε) :
    AppendsOrFails (Act.fail e : Act (Filled β) ε α) w bs a := .inr ⟨e, w, rfl, rfl⟩

theorem AppendsOrFails.bind (hx : AppendsOrFails x w bs a)
    (hf : bs.length ≤ w.room → AppendsOrFails (f a) (w.extend bs) cs c) :
    AppendsOrFails (x >>= f) w (bs ++ cs) c := by
  rcases hx with ⟨hle, hx⟩ | ⟨e, w', hx, hc⟩
  · rw [AppendsOrFails, Act.bind_of_ok hx]
    rcases hf hle with ⟨hle', hf⟩ | ⟨e, w', hf, hc⟩
    · rw [Filled.room_extend hle] at hle'
      have hfit : bs.length + cs.length ≤ w.room := by omega
      exact .inl ⟨by rwa [List.length_append], by rw [hf, Filled.extend_extend hfit]⟩
    · exact .inr ⟨e, w', hf, by rw [hc, Filled.capacity_extend]⟩
  · exact .inr ⟨e, w', Act.bind_of_err hx, hc⟩

theorem Emits.appendsOrFails {full : ε} (hx : Emits full x bs a) (w : Filled β) :
    AppendsOrFails x w bs a := by
  by_cases hle : bs.length ≤ w.room
  · exact .inl ⟨hle, (hx w).1 hle⟩
  · obtain ⟨w', hw', hc⟩ := (hx w).2 (by omega)
    exact .inr ⟨full, w', hw', hc⟩

theorem Atomic.appendsOrFails {handler : (q : Q) → Act (Filled β) ε (A q)}
    {bytes : Q → List β} (h : Atomic handler bytes) (d : Dialogue Q A ε Unit) (w : Filled β) :
    AppendsOrFails (d.run handler) w (added bytes (d.asked handler w)) () := by
  obtain ⟨hle, hst, hne⟩ := h.run d w
  rcases hr : d.run handler w with ⟨⟨⟩ | e | _, w'⟩
  · rw [hr] at hst
    exact .inl ⟨hle, by rw [hr, ← hst]⟩
  · rw [hr] at hst
    refine .inr ⟨e, w', hr, ?_⟩
    rw [show w' = _ from hst, Filled.capacity_extend]
  · rw [hr] at hne
    exact absurd rfl hne

end AppendsOrFails

end Atomic

end Wire
