/-
Umqtt/Packetview/SubAck.lean

The acknowledgement of a SUBSCRIBE (`packetview/suback.rs`): one return code for
each filter.

The codes of a received packet stay bytes until they are iterated.  The
iterator stops at the first byte that is no code, but a packet with such a byte
is not accepted in the first place.
-/
import Umqtt.Packetview.Fields

namespace Umqtt

open Effects Wire

inductive SubscribeReasonCode where
  | success (qos : QoS)
  | failure
  deriving DecidableEq

namespace SubscribeReasonCode

def tryFrom (value : UInt8) : Outcome Error SubscribeReasonCode :=
  match value.toNat with
  | 0 => .ok (success .atMostOnce)
  | 1 => .ok (success .atLeastOnce)
  | 2 => .ok (success .exactlyOnce)
  | 128 => .ok failure
  | _ => .err (.invalidSubscribeReasonCode value)

/-- The byte that `write` puts for a code. -/
def toU8 : SubscribeReasonCode → UInt8
  | success qos => qos.toU8
  | failure => 0x80

@[simp] theorem tryFrom_toU8 (code : SubscribeReasonCode) : tryFrom code.toU8 = .ok code := by
  rcases code with (_ | _ | _) | _ <;> rfl

theorem tryFrom_eq_ok {value : UInt8} {code : SubscribeReasonCode} :
    tryFrom value = .ok code ↔ value = code.toU8 := by
  refine ⟨fun h => UInt8.toNat_inj.mp ?_, fun h => h ▸ tryFrom_toU8 code⟩
  unfold tryFrom at h
  split at h <;> first
    | (rename_i hvalue; cases h; exact hvalue)
    | cases h

/-- The bytes that stand for a code. -/
def IsCode (value : UInt8) : Prop := value = 0 ∨ value = 1 ∨ value = 2 ∨ value = 128

instance : DecidablePred IsCode := fun value =>
  inferInstanceAs (Decidable (value = 0 ∨ value = 1 ∨ value = 2 ∨ value = 128))

theorem isCode_iff {value : UInt8} :
    IsCode value ↔ ∃ code : SubscribeReasonCode, value = code.toU8 := by
  constructor
  · rintro (rfl | rfl | rfl | rfl)
    · exact ⟨success .atMostOnce, rfl⟩
    · exact ⟨success .atLeastOnce, rfl⟩
    · exact ⟨success .exactlyOnce, rfl⟩
    · exact ⟨failure, rfl⟩
  · rintro ⟨(_ | _ | _) | _, rfl⟩ <;> decide

theorem exists_map_toU8 {bytes : List UInt8} :
    (∃ codes : List SubscribeReasonCode, bytes = codes.map toU8) ↔ ∀ b ∈ bytes, IsCode b := by
  induction bytes with
  | nil => exact ⟨fun _ => nofun, fun _ => ⟨[], rfl⟩⟩
  | cons byte bytes ih =>
    rw [List.forall_mem_cons, ← ih, isCode_iff]
    constructor
    · rintro ⟨codes, hcodes⟩
      obtain ⟨code, codes, rfl, rfl, rfl⟩ := List.map_eq_cons_iff.mp hcodes.symm
      exact ⟨⟨code, rfl⟩, codes, rfl⟩
    · rintro ⟨⟨code, rfl⟩, codes, rfl⟩
      exact ⟨code :: codes, rfl⟩

theorem errsIn_tryFrom (value : UInt8) : (tryFrom value).ErrsIn Settled := by
  unfold tryFrom
  split
  all_goals first | exact trivial | exact rfl

end SubscribeReasonCode

/-- Acknowledgement to subscribe -/
structure SubAck where
  pkid : UInt16
  returnCodes : Storage SubscribeReasonCode
  deriving DecidableEq

namespace SubAck

/-- The iterator over encoded codes. -/
def BytesIterator.next : Act (List UInt8) Empty (Option SubscribeReasonCode) := do
  match ← Act.gets id with
  | [] => pure none
  | byte :: rest => do
      Act.modify fun _ => rest
      match SubscribeReasonCode.tryFrom byte with
      | .ok code => pure (some code)
      | _ => pure none

/-- `Storage::len` -/
def storageLen : Storage SubscribeReasonCode → Nat
  | .slice s => s.length
  | .wireBytes b => b.length

def len (self : SubAck) : Nat := 2 + storageLen self.returnCodes

def readExact (fixedHeader : FixedHeader) (bytes : List UInt8) : Outcome Error SubAck :=
  readBody fixedHeader bytes do
    let pkid ← readU16
    let bytes ← Act.gets id
    if bytes.isEmpty then
      Act.fail .malformedPacket
    else do
      Act.forEach (fun byte => do let _ ← Act.lift (SubscribeReasonCode.tryFrom byte)) bytes
      pure { pkid, returnCodes := .wireBytes bytes }

def write (self : SubAck) : Act (List UInt8) WriteError Nat :=
  onBuffer do
    WriteCursor.putU8 0x90
    let remainingLen := self.len
    let _ ← writeRemainingLength remainingLen
    WriteCursor.putU16 self.pkid
    let codes ← Act.liftTotal (self.returnCodes.iter BytesIterator.next)
    Act.forEach (fun code => WriteCursor.putU8 (SubscribeReasonCode.toU8 code)) codes
    WriteCursor.bytesWritten

/-! ### The bytes of a SUBACK -/

/-- `storage` is the list `codes`, and no byte of it is anything but a code. -/
def Holds (codes : List SubscribeReasonCode) : Storage SubscribeReasonCode → Prop
  | .slice s => s = codes
  | .wireBytes b => b = codes.map SubscribeReasonCode.toU8

def body (pkid : UInt16) (codes : List SubscribeReasonCode) : List UInt8 :=
  toBeBytes pkid ++ codes.map SubscribeReasonCode.toU8

theorem yields_map (codes : List SubscribeReasonCode) :
    Act.Yields BytesIterator.next (codes.map SubscribeReasonCode.toU8) codes [] := by
  induction codes with
  | nil => exact .nil rfl
  | cons code codes ih =>
    refine .cons ?_ ih
    simp [BytesIterator.next, Act.bind_apply]

theorem Holds.iter {codes : List SubscribeReasonCode} {storage : Storage SubscribeReasonCode}
    (h : Holds codes storage) : storage.iter BytesIterator.next = .ok codes := by
  cases storage with
  | slice s => exact congrArg _ h
  | wireBytes b =>
    obtain rfl : b = _ := h
    rw [Storage.iter, drainAll, (yields_map codes).drain (by simp)]

theorem Holds.len {codes : List SubscribeReasonCode} {self : SubAck}
    (h : Holds codes self.returnCodes) : self.len = (body self.pkid codes).length := by
  rw [SubAck.len, body, List.length_append, List.length_map, length_toBeBytes]
  obtain ⟨pkid, s | b⟩ := self
  · obtain rfl : s = _ := h
    rfl
  · obtain rfl : b = _ := h
    rw [storageLen, List.length_map]

/-- The bytes of the codes that an iteration yields: of unchecked bytes those
before the first that is no code. -/
def yielded : Storage SubscribeReasonCode → List UInt8
  | .slice s => s.map SubscribeReasonCode.toU8
  | .wireBytes b => b.takeWhile (SubscribeReasonCode.IsCode ·)

theorem exists_yields (bytes : List UInt8) : ∃ codes rest,
    Act.Yields BytesIterator.next bytes codes rest ∧ codes.length ≤ bytes.length ∧
      codes.map SubscribeReasonCode.toU8 = bytes.takeWhile (SubscribeReasonCode.IsCode ·) := by
  induction bytes with
  | nil => exact ⟨[], [], .nil rfl, Nat.le_refl 0, rfl⟩
  | cons byte bytes ih =>
    by_cases hcode : SubscribeReasonCode.IsCode byte
    · obtain ⟨codes, rest, hyields, hlen, hcodes⟩ := ih
      obtain ⟨code, rfl⟩ := SubscribeReasonCode.isCode_iff.mp hcode
      refine ⟨code :: codes, rest, .cons (t := bytes) ?_ hyields, Nat.succ_le_succ hlen, ?_⟩
      · simp [BytesIterator.next, Act.bind_apply]
      · simp only [List.takeWhile_cons, hcode, decide_true, if_true, ← hcodes, List.map_cons]
    · -- the iterator takes a byte that is no code, and ends
      refine ⟨[], bytes, .nil ?_, Nat.zero_le _, ?_⟩
      · simp only [BytesIterator.next, Act.bind_apply, Act.gets_apply, id_eq, Act.modify_apply]
        rcases htry : SubscribeReasonCode.tryFrom byte with code | e | _
        · exact absurd (SubscribeReasonCode.isCode_iff.mpr
            ⟨code, SubscribeReasonCode.tryFrom_eq_ok.mp htry⟩) hcode
        · rfl
        · rfl
      · simp only [List.takeWhile_cons, hcode, decide_false, Bool.false_eq_true, if_false,
          List.map_nil]

theorem iter_yielded (storage : Storage SubscribeReasonCode) :
    ∃ codes, storage.iter BytesIterator.next = .ok codes ∧
      codes.map SubscribeReasonCode.toU8 = yielded storage := by
  cases storage with
  | slice s => exact ⟨s, rfl, rfl⟩
  | wireBytes b =>
    obtain ⟨codes, rest, hyields, hlen, hcodes⟩ := exists_yields b
    refine ⟨codes, ?_, hcodes⟩
    rw [Storage.iter, drainAll, hyields.drain (Nat.lt_succ_of_le hlen)]

/-- The length that is announced counts all bytes, and what is written are those
that an iteration yields. -/
theorem writes_yielded {self : SubAck} (hlen : self.len ≤ 268435455) :
    Writes WriteError.notEnoughCapacity self.write
      (0x90 :: (base128 self.len ++ (toBeBytes self.pkid ++ yielded self.returnCodes))) := by
  obtain ⟨codes, hiter, hyielded⟩ := iter_yielded self.returnCodes
  have hcodes : Fills WriteError.notEnoughCapacity
      (do let codes ← Act.liftTotal (self.returnCodes.iter BytesIterator.next)
          Act.forEach (fun code => WriteCursor.putU8 (SubscribeReasonCode.toU8 code)) codes
          WriteCursor.bytesWritten) (yielded self.returnCodes) := by
    rw [hiter, ← hyielded]
    refine ((Emits.forEach (fun code => WriteCursor.emits_putU8 _) codes).bindFills
      fills_len).congr ?_
    rw [List.append_nil, ← List.map_eq_flatMap]
  exact (fills_announced 0x90
    ((WriteCursor.emits_putU16 self.pkid).bindFills (g := fun _ => _) hcodes) hlen).writes

theorem refuses {self : SubAck} (h : 268435455 < self.len) (buf : List UInt8) :
    ∃ e buf', self.write buf = (.err e, buf') ∧ buf'.length = buf.length :=
  (refuses_frame 0x90 h _).onBuffer buf

theorem Holds.yielded {codes : List SubscribeReasonCode} {storage : Storage SubscribeReasonCode}
    (h : Holds codes storage) : yielded storage = codes.map SubscribeReasonCode.toU8 := by
  obtain ⟨codes', hiter, hyielded⟩ := iter_yielded storage
  obtain rfl := Outcome.ok.inj (hiter.symm.trans h.iter)
  exact hyielded.symm

theorem writes {self : SubAck} {codes : List SubscribeReasonCode}
    (h : Holds codes self.returnCodes) (hlen : (body self.pkid codes).length ≤ 268435455) :
    Writes WriteError.notEnoughCapacity self.write (frame 0x90 (body self.pkid codes)) := by
  have hwrites := writes_yielded (h.len.trans_le hlen)
  rw [h.len, h.yielded] at hwrites
  exact hwrites

/-- The reader checks every byte of the list. -/
theorem forEach_tryFrom {bytes : List UInt8} {c c' : Cursor} :
    (Act.forEach (fun byte => do let _ ← Act.lift (SubscribeReasonCode.tryFrom byte)) bytes :
      Act Cursor Error Unit) c = (.ok (), c') ↔
      c = c' ∧ ∃ codes : List SubscribeReasonCode,
        bytes = codes.map SubscribeReasonCode.toU8 := by
  have hcode : ∀ (byte : UInt8) (t : Cursor),
      (do let _ ← Act.lift (SubscribeReasonCode.tryFrom byte) : Act Cursor Error Unit) c =
        (.ok (), t) ↔ c = t ∧ ∃ code : SubscribeReasonCode, byte = code.toU8 := by
    intro byte t
    simp [Act.bind_eq_ok, SubscribeReasonCode.tryFrom_eq_ok, and_comm]
  induction bytes with
  | nil =>
    refine ⟨fun h => ⟨congrArg Prod.snd h, [], rfl⟩, fun h => ?_⟩
    rw [h.1]
    rfl
  | cons byte bytes ih =>
    rw [Act.forEach, Act.bind_eq_ok]
    constructor
    · rintro ⟨_, t, hbyte, hbytes⟩
      obtain ⟨rfl, code, rfl⟩ := (hcode byte t).mp hbyte
      obtain ⟨rfl, codes, rfl⟩ := ih.mp hbytes
      exact ⟨rfl, code :: codes, rfl⟩
    · rintro ⟨hc, codes, hcodes⟩
      obtain ⟨code, codes, rfl, rfl, rfl⟩ := List.map_eq_cons_iff.mp hcodes.symm
      exact ⟨(), c, (hcode _ _).mpr ⟨rfl, code, rfl⟩, ih.mpr ⟨hc, codes, rfl⟩⟩

/-- A SUBACK is accepted iff its body has one code or more, and nothing but
codes. -/
theorem readExact_eq_ok {fh : FixedHeader} {lenBytes body : List UInt8} (h : fh.OnWire lenBytes)
    {self : SubAck} :
    readExact fh (fh.byte1 :: (lenBytes ++ body)) = .ok self ↔
      ∃ codes : List SubscribeReasonCode, codes ≠ [] ∧ body = SubAck.body self.pkid codes ∧
        self.returnCodes = .wireBytes (codes.map SubscribeReasonCode.toU8) := by
  rw [readExact, readBody_eq_ok h]
  constructor
  · rintro ⟨c, hc⟩
    obtain ⟨pkid, bytes, hpkid, hrest⟩ := Act.bind_eq_ok.mp hc
    rw [Act.bind_of_ok (Act.gets_apply _ _), id_eq] at hrest
    by_cases hempty : bytes.isEmpty
    · rw [if_pos hempty] at hrest
      cases hrest
    · rw [if_neg hempty] at hrest
      obtain ⟨_, t, hcheck, hself⟩ := Act.bind_eq_ok.mp hrest
      obtain ⟨-, codes, rfl⟩ := forEach_tryFrom.mp hcheck
      cases hself
      refine ⟨codes, ?_, readU16_eq_ok.mp hpkid, rfl⟩
      rintro rfl
      exact hempty rfl
  · rintro ⟨codes, hne, rfl, hcodes⟩
    have hempty : ¬(codes.map SubscribeReasonCode.toU8).isEmpty = true := by
      rwa [List.isEmpty_iff, List.map_eq_nil_iff]
    refine ⟨codes.map SubscribeReasonCode.toU8, ?_⟩
    rw [SubAck.body, Act.bind_of_ok (readU16_append _ _), Act.bind_of_ok (Act.gets_apply _ _),
      id_eq, if_neg hempty, Act.bind_of_ok (forEach_tryFrom.mpr ⟨rfl, codes, rfl⟩), ← hcodes]
    rfl

/-- Reading the bytes back. -/
theorem readExact_frame {pkid : UInt16} {codes : List SubscribeReasonCode} (hne : codes ≠ [])
    (hlen : (body pkid codes).length ≤ 268435455) :
    readExact (frameHeader 0x90 (body pkid codes)) (frame 0x90 (body pkid codes)) =
      .ok ⟨pkid, .wireBytes (codes.map SubscribeReasonCode.toU8)⟩ :=
  (readExact_eq_ok (onWire_frameHeader hlen)).mpr ⟨codes, hne, rfl, rfl⟩

theorem errsIn_readExact {fh : FixedHeader} {lenBytes body : List UInt8}
    (h : fh.OnWire lenBytes) :
    (readExact fh (fh.byte1 :: (lenBytes ++ body))).ErrsIn Settled :=
  errsIn_readBody (errs_readU16.bind fun _ => (Act.Errs.gets _).bind fun _ =>
    .ite (.fail rfl) ((Act.Errs.forEach (fun byte =>
      (Act.Errs.lift (SubscribeReasonCode.errsIn_tryFrom byte)).bind fun _ => .pure _) _).bind
        fun _ => .pure _)) h

end SubAck

end Umqtt
