/-
Umqtt/Packetview/Fields.lean

The readers and writers of single fields in `packetview/mod.rs`, which all
packets share.

The readers are characterised by what they accept (`readMqttString_eq_ok` and
its siblings), which serves in both directions: to read back what was written,
and to take an accepted body apart.  The writers are characterised by the bytes
they append (`emits_writeMqttString` and its siblings).
-/
import Umqtt.Lib.Entries
import Umqtt.Packetview.Framing

namespace Umqtt

open Effects Wire

/-! ### Reading fields -/

def readU8 : Act Cursor Error UInt8 := do
  if (← Act.gets id).isEmpty then
    Act.fail .malformedPacket
  else
    Cursor.takeU8

def readU16 : Act Cursor Error UInt16 := do
  if (← Act.gets id).length < 2 then
    Act.fail .malformedPacket
  else
    Cursor.takeU16

/-- Reads a series of bytes with a length from a byte stream -/
def readMqttBytes : Act Cursor Error (List UInt8) := do
  let len ← readU16
  if len.toNat > (← Act.gets id).length then
    Act.fail .malformedPacket
  else
    Cursor.splitTo len.toNat

/-- Reads a string from bytes stream -/
def readMqttString : Act Cursor Error String := do
  let s ← readMqttBytes
  match fromUtf8 s with
  | some v => pure v
  | none => Act.fail .badUtf8

/-- Read the body of a frame: what `read_exact` does with a cursor on the
whole frame once it has skipped the fixed header. -/
def readBody {α : Type} (fixedHeader : FixedHeader) (bytes : List UInt8)
    (body : Act Cursor Error α) : Outcome Error α :=
  ((do Cursor.advance fixedHeader.fixedHeaderLen; body : Act Cursor Error α) bytes).1

/-! ### Writing fields -/

/-- Serializes bytes to stream (including length) -/
def writeMqttBytes (bytes : List UInt8) : Act WriteCursor WriteError Unit := do
  WriteCursor.putU16 (UInt16.ofNat bytes.length)
  WriteCursor.putSlice bytes

/-- Serializes a string to stream -/
def writeMqttString (string : String) : Act WriteCursor WriteError Unit :=
  writeMqttBytes (asBytes string)

/-- The loop of `write_remaining_length`, over its accumulators. -/
def writeRemainingLengthLoop (x count : Nat) : Act WriteCursor WriteError Nat := do
  let byte := UInt8.ofNat (x % 128)
  let byte := if x / 128 > 0 then byte ||| 128 else byte
  WriteCursor.putU8 byte
  if x / 128 = 0 then
    pure (count + 1)
  else
    writeRemainingLengthLoop (x / 128) (count + 1)
termination_by x

/-- Writes remaining length to stream and returns number of bytes for remaining length -/
def writeRemainingLength (len : Nat) : Act WriteCursor WriteError Nat :=
  if len > 268435455 then Act.fail .payloadTooLong else writeRemainingLengthLoop len 0

/-! ### Lists in packets -/

/-- A list in a packet: items at hand, or the bytes of a received packet, which
are decoded each time the list is iterated. -/
inductive Storage (α : Type) where
  | slice (items : List α)
  | wireBytes (bytes : List UInt8)
  deriving DecidableEq

/-- What an iteration over the list yields, when `next` decodes its bytes. -/
def Storage.iter {α : Type} (next : Act (List UInt8) Empty (Option α)) :
    Storage α → Outcome Empty (List α)
  | slice items => .ok items
  | wireBytes bytes => (drainAll next bytes).1

/-- An iteration comes to an end, whatever the bytes. -/
theorem Storage.exists_iter {α : Type} {next : Act (List UInt8) Empty (Option α)}
    {entry : α → List UInt8} {valid : α → Prop} (h : Decodes next entry valid) (self : Storage α) :
    ∃ items, self.iter next = .ok items := by
  cases self with
  | slice items => exact ⟨items, rfl⟩
  | wireBytes bytes =>
    obtain ⟨items, rest, -, hdrain⟩ := h.drain_split bytes
    exact ⟨items, congrArg Prod.fst hdrain⟩

/-! ### What the field readers accept -/

section Readers

variable {c c' : Cursor}

theorem readU8_eq_ok {b : UInt8} : readU8 c = (.ok b, c') ↔ c = b :: c' := by
  cases c with
  | nil => simp [readU8, Act.bind_apply]
  | cons d c => simp [readU8, Act.bind_apply, Cursor.takeU8_cons]

theorem readU16_cons (hi lo : UInt8) (c : Cursor) :
    readU16 (hi :: lo :: c) = (.ok (fromBeBytes hi lo), c) := by
  have hlen : ¬(hi :: lo :: c).length < 2 := by simp
  rw [readU16, Act.bind_apply, Act.gets_apply]
  show (if (hi :: lo :: c).length < 2 then Act.fail .malformedPacket
    else Cursor.takeU16 : Act Cursor Error UInt16) (hi :: lo :: c) = _
  rw [if_neg hlen, Cursor.takeU16_cons]

theorem readU16_eq_ok {n : UInt16} : readU16 c = (.ok n, c') ↔ c = toBeBytes n ++ c' := by
  match c with
  | [] => simp [readU16, Act.bind_apply, toBeBytes]
  | [_] => simp [readU16, Act.bind_apply, toBeBytes]
  | hi :: lo :: c =>
    rw [readU16_cons]
    constructor
    · intro h
      obtain ⟨rfl, rfl⟩ : fromBeBytes hi lo = n ∧ c = c' := by simpa using h
      rw [toBeBytes_fromBeBytes]
      rfl
    · intro h
      simp only [toBeBytes, List.cons_append, List.nil_append, List.cons.injEq] at h
      obtain ⟨rfl, rfl, rfl⟩ := h
      rw [fromBeBytes_toBeBytes]

theorem readMqttBytes_eq_ok {bs : List UInt8} :
    readMqttBytes c = (.ok bs, c') ↔ bs.length ≤ 65535 ∧ c = lenPrefixed bs ++ c' := by
  -- behind the length, the reader takes that many bytes if there are any
  have hrest : ∀ (n : UInt16) (d : Cursor),
      (do if n.toNat > (← Act.gets id).length then
            Act.fail .malformedPacket
          else Cursor.splitTo n.toNat : Act Cursor Error (List UInt8)) d = (.ok bs, c') ↔
        n.toNat = bs.length ∧ d = bs ++ c' := by
    intro n d
    simp only [Act.bind_apply, Act.gets_apply, id_eq]
    by_cases hn : n.toNat > d.length
    · rw [if_pos hn]
      simp only [Act.fail_apply, Prod.mk.injEq, reduceCtorEq, false_and, false_iff, not_and]
      rintro h rfl
      rw [List.length_append] at hn
      omega
    · rw [if_neg hn, Cursor.splitTo_apply (by omega)]
      simp only [Prod.mk.injEq, Outcome.ok.injEq]
      constructor
      · rintro ⟨rfl, rfl⟩
        exact ⟨by rw [List.length_take]; omega, (List.take_append_drop _ _).symm⟩
      · rintro ⟨h, rfl⟩
        rw [h]
        simp
  rw [readMqttBytes, Act.bind_eq_ok]
  constructor
  · rintro ⟨n, d, hn, hd⟩
    obtain ⟨hlen, rfl⟩ := (hrest n d).mp hd
    have hlt := n.toNat_lt
    refine ⟨by omega, ?_⟩
    rw [readU16_eq_ok.mp hn, lenPrefixed, ← hlen, UInt16.ofNat_toNat, List.append_assoc]
  · rintro ⟨hlen, rfl⟩
    refine ⟨UInt16.ofNat bs.length, bs ++ c', ?_, (hrest _ _).mpr
      ⟨toNat_ofNat_length hlen, rfl⟩⟩
    rw [readU16_eq_ok, lenPrefixed, List.append_assoc]

theorem readMqttString_eq_ok {s : String} :
    readMqttString c = (.ok s, c') ↔
      (asBytes s).length ≤ 65535 ∧ c = lenPrefixed (asBytes s) ++ c' := by
  -- the bytes are a string iff they are its encoding
  have hrest : ∀ (bs : List UInt8) (d : Cursor),
      (match fromUtf8 bs with
        | some v => pure v
        | none => Act.fail .badUtf8 : Act Cursor Error String) d = (.ok s, c') ↔
        asBytes s = bs ∧ d = c' := by
    intro bs d
    rw [← fromUtf8_eq_some]
    cases fromUtf8 bs <;> simp
  rw [readMqttString, Act.bind_eq_ok, ← readMqttBytes_eq_ok]
  constructor
  · rintro ⟨bs, d, hbs, hd⟩
    obtain ⟨rfl, rfl⟩ := (hrest bs d).mp hd
    exact hbs
  · exact fun h => ⟨asBytes s, c', h, (hrest _ _).mpr ⟨rfl, rfl⟩⟩

theorem readU8_cons (b : UInt8) (c : Cursor) : readU8 (b :: c) = (.ok b, c) :=
  readU8_eq_ok.mpr rfl

theorem readU16_append (n : UInt16) (c : Cursor) : readU16 (toBeBytes n ++ c) = (.ok n, c) :=
  readU16_eq_ok.mpr rfl

theorem readMqttBytes_append {bs : List UInt8} (h : bs.length ≤ 65535) (c : Cursor) :
    readMqttBytes (lenPrefixed bs ++ c) = (.ok bs, c) :=
  readMqttBytes_eq_ok.mpr ⟨h, rfl⟩

theorem readMqttString_append {s : String} (h : (asBytes s).length ≤ 65535) (c : Cursor) :
    readMqttString (lenPrefixed (asBytes s) ++ c) = (.ok s, c) :=
  readMqttString_eq_ok.mpr ⟨h, rfl⟩

/-- The readers do not panic, and never ask for more bytes: they run on whole
frames. -/
def Settled (e : Error) : Prop := e.isNeedMoreData = false

theorem errs_readU8 : Act.Errs Settled readU8 := by
  intro c
  cases c with
  | nil => exact rfl
  | cons b c =>
    rw [readU8_cons]
    exact trivial

theorem errs_readU16 : Act.Errs Settled readU16 := by
  intro c
  match c with
  | [] => exact rfl
  | [_] => exact rfl
  | hi :: lo :: c =>
    rw [readU16_cons]
    exact trivial

theorem errs_readMqttBytes : Act.Errs Settled readMqttBytes := by
  refine errs_readU16.bind fun n c => ?_
  simp only [Act.bind_apply, Act.gets_apply, id_eq]
  split
  · exact rfl
  · rw [Cursor.splitTo_apply (by omega)]
    exact trivial

theorem errs_readMqttString : Act.Errs Settled readMqttString := by
  refine errs_readMqttBytes.bind fun bs => ?_
  cases fromUtf8 bs with
  | some v => exact .pure v
  | none => exact .fail rfl

theorem errsIn_qos (num : UInt8) : (qos num).ErrsIn Settled := by
  unfold qos
  split
  · exact trivial
  · exact trivial
  · exact trivial
  · exact rfl

end Readers

/-! ### Reading a body -/

section Body

variable {α : Type} {fh : FixedHeader} {lenBytes body : List UInt8} {x : Act Cursor Error α}

theorem readBody_append {header : List UInt8} (h : header.length = fh.fixedHeaderLen) :
    readBody fh (header ++ body) x = (x body).1 := by
  have hle : fh.fixedHeaderLen ≤ (header ++ body).length := by
    rw [List.length_append]
    omega
  rw [readBody, Act.bind_of_ok (Cursor.advance_apply hle), ← h, List.drop_left]

theorem readBody_onWire (h : fh.OnWire lenBytes) :
    readBody fh (fh.byte1 :: (lenBytes ++ body)) x = (x body).1 :=
  @readBody_append _ fh body x (fh.byte1 :: lenBytes) h.fixedHeaderLen.symm

theorem readBody_eq_ok (h : fh.OnWire lenBytes) {a : α} :
    readBody fh (fh.byte1 :: (lenBytes ++ body)) x = .ok a ↔ ∃ c, x body = (.ok a, c) := by
  rw [readBody_onWire h, Act.fst_eq_ok]

theorem readBody_frame {byte1 : UInt8} (h : body.length ≤ 268435455) :
    readBody (frameHeader byte1 body) (frame byte1 body) x = (x body).1 :=
  readBody_onWire (onWire_frameHeader h)

theorem errsIn_readBody (hx : Act.Errs Settled x) (h : fh.OnWire lenBytes) :
    (readBody fh (fh.byte1 :: (lenBytes ++ body)) x).ErrsIn Settled := by
  rw [readBody_onWire h]
  exact hx body

end Body

/-! ### What the field writers append -/

theorem emits_writeMqttBytes (bs : List UInt8) :
    Emits WriteError.notEnoughCapacity (writeMqttBytes bs) (lenPrefixed bs) () :=
  (WriteCursor.emits_putU16 _).bind (WriteCursor.emits_putSlice bs)

theorem emits_writeMqttString (s : String) :
    Emits WriteError.notEnoughCapacity (writeMqttString s) (lenPrefixed (asBytes s)) () :=
  emits_writeMqttBytes (asBytes s)

theorem or_0x80 {n : Nat} (h : n < 128) : UInt8.ofNat n ||| 128 = UInt8.ofNat (n + 128) := by
  revert h n
  decide +kernel

theorem emits_writeRemainingLengthLoop (x count : Nat) :
    Emits WriteError.notEnoughCapacity (writeRemainingLengthLoop x count) (base128 x)
      (count + (base128 x).length) := by
  induction x using Nat.strongRecOn generalizing count with
  | ind x ih =>
    rw [writeRemainingLengthLoop, base128]
    by_cases hx : x < 128
    -- the last byte has no continuation bit
    · have h0 : x / 128 = 0 := by omega
      rw [if_pos hx, if_neg (by omega), if_pos h0, Nat.mod_eq_of_lt hx]
      exact (WriteCursor.emits_putU8 _).bind .pure
    · rw [if_neg hx, if_pos (by omega), if_neg (by omega), or_0x80 (by omega)]
      refine ((WriteCursor.emits_putU8 _).bind
        (ih (x / 128) (by omega) (count + 1))).congrValue ?_
      rw [List.length_cons]
      omega

theorem emits_writeRemainingLength {n : Nat} (h : n ≤ 268435455) :
    Emits WriteError.notEnoughCapacity (writeRemainingLength n) (base128 n)
      (base128 n).length := by
  rw [writeRemainingLength, if_neg (by omega), ← Nat.zero_add (base128 n).length]
  exact emits_writeRemainingLengthLoop n 0

/-- A writer that announces `n` bytes and then writes its body, whatever the
length of that. -/
theorem fills_announced (byte1 : UInt8) {n : Nat} {body : List UInt8}
    {x : Act WriteCursor WriteError Nat} (hx : Fills WriteError.notEnoughCapacity x body)
    (h : n ≤ 268435455) :
    Fills WriteError.notEnoughCapacity
      (do WriteCursor.putU8 byte1
          let _ ← writeRemainingLength n
          x) (byte1 :: (base128 n ++ body)) :=
  (WriteCursor.emits_putU8 byte1).bindFills ((emits_writeRemainingLength h).bindFills hx)

/-- A writer that announces its body and then writes it produces a frame. -/
theorem fills_frame (byte1 : UInt8) (body : List UInt8) {n : Nat}
    {x : Act WriteCursor WriteError Nat} (hx : Fills WriteError.notEnoughCapacity x body)
    (hn : n = body.length) (h : body.length ≤ 268435455) :
    Fills WriteError.notEnoughCapacity
      (do WriteCursor.putU8 byte1
          let _ ← writeRemainingLength n
          x) (frame byte1 body) := by
  subst hn
  exact fills_announced byte1 hx h

/-- A writer that announces a body beyond the limit fails. -/
theorem refuses_frame (byte1 : UInt8) {n : Nat} (h : 268435455 < n) {α : Type}
    (x : Act WriteCursor WriteError α) :
    Refuses (do
      WriteCursor.putU8 byte1
      let _ ← writeRemainingLength n
      x) := by
  refine (WriteCursor.emits_putU8 byte1).bindRefuses (Refuses.bind ?_)
  rw [writeRemainingLength, if_pos h]
  exact refuses_fail _

end Umqtt
