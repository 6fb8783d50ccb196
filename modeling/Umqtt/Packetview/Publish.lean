/-
Umqtt/Packetview/Publish.lean

The PUBLISH packet (`packetview/publish.rs`), encoded from a value that has its
topic and payload at hand.  `OutPublish.lean` has the encoder that lets the
caller write both in place.

A PUBLISH carries a packet id iff its quality of service is above 0.
-/
import Umqtt.Packetview.Fields

namespace Umqtt

open Effects Wire

/-- Publish packet -/
structure Publish where
  dup : Bool
  qos : QoS
  retain : Bool
  topic : String
  pkid : UInt16
  payload : List UInt8
  deriving DecidableEq

namespace Publish

/-- The first byte of a PUBLISH. -/
def byte1 (dup : Bool) (qos : QoS) (retain : Bool) : UInt8 :=
  (0b0011_0000 : UInt8) ||| retain.toUInt8 ||| (qos.toU8 <<< 1) ||| (dup.toUInt8 <<< 3)

def readExact (fixedHeader : FixedHeader) (bytes : List UInt8) : Outcome Error Publish := do
  let qos ← Umqtt.qos ((fixedHeader.byte1 &&& 0b0110) >>> 1)
  let dup := fixedHeader.byte1 &&& 0b1000 != 0
  let retain := fixedHeader.byte1 &&& 0b0001 != 0
  readBody fixedHeader bytes do
    let topic ← readMqttString
    -- Packet identifier exists where QoS > 0
    let pkid ← (match qos with
      | .atMostOnce => pure 0
      | .atLeastOnce | .exactlyOnce => readU16 : Act Cursor Error UInt16)
    if qos ≠ .atMostOnce ∧ pkid = 0 then
      Act.fail .packetIdZero
    else
      let payload ← Act.gets id
      pure { dup, retain, qos, pkid, topic, payload }

def len (self : Publish) : Nat :=
  let len := 2 + (asBytes self.topic).length + self.payload.length
  if self.qos ≠ .atMostOnce ∧ self.pkid ≠ 0 then len + 2 else len

def write (self : Publish) : Act (List UInt8) WriteError Nat :=
  onBuffer do
    WriteCursor.putU8 (byte1 self.dup self.qos self.retain)
    let _ ← writeRemainingLength self.len
    writeMqttString self.topic
    (if self.qos ≠ .atMostOnce then
      if self.pkid = 0 then
        Act.fail .malformedPacket
      else
        WriteCursor.putU16 self.pkid
    else
      pure ())
    WriteCursor.putSlice self.payload
    WriteCursor.bytesWritten

/-! ### The bytes of a PUBLISH -/

/-- The packet id on the wire. -/
def pkidField (qos : QoS) (pkid : UInt16) : List UInt8 :=
  if qos = .atMostOnce then [] else toBeBytes pkid

def body (self : Publish) : List UInt8 :=
  lenPrefixed (asBytes self.topic) ++ (pkidField self.qos self.pkid ++ self.payload)

theorem length_body {self : Publish} (h : self.qos ≠ .atMostOnce → self.pkid ≠ 0) :
    self.body.length = self.len := by
  simp only [body, len, pkidField, List.length_append, length_lenPrefixed]
  by_cases hq : self.qos = .atMostOnce
  · simp [hq]
  · simp [hq, h hq]
    omega

theorem writes {self : Publish} (h : self.qos ≠ .atMostOnce → self.pkid ≠ 0)
    (hlen : self.len ≤ 268435455) :
    Writes WriteError.notEnoughCapacity self.write
      (frame (byte1 self.dup self.qos self.retain) self.body) := by
  have hbody := length_body h
  refine (fills_frame _ self.body ?_ hbody.symm (by omega)).writes
  refine (emits_writeMqttString _).bindFills (Emits.bindFills (a := ()) ?_
    (((WriteCursor.emits_putSlice self.payload).bindFills fills_len).congr (List.append_nil _)))
  rw [pkidField]
  by_cases hq : self.qos = .atMostOnce
  · rw [if_neg (not_not.mpr hq), if_pos hq]
    exact .pure
  · rw [if_pos hq, if_neg (h hq), if_neg hq]
    exact WriteCursor.emits_putU16 _

/-- What cannot be encoded is refused: a body beyond the limit, or a packet id
that is missing. -/
theorem refuses {self : Publish}
    (h : ¬((self.qos ≠ .atMostOnce → self.pkid ≠ 0) ∧ self.len ≤ 268435455)) (buf : List UInt8) :
    ∃ e buf', self.write buf = (.err e, buf') ∧ buf'.length = buf.length := by
  by_cases hlen : self.len ≤ 268435455
  · obtain ⟨hq, hpkid⟩ := Classical.not_imp.mp fun hid => h ⟨hid, hlen⟩
    refine Refuses.onBuffer ?_ buf
    refine (WriteCursor.emits_putU8 _).bindRefuses ((emits_writeRemainingLength hlen).bindRefuses
      ((emits_writeMqttString _).bindRefuses (Refuses.bind ?_)))
    rw [if_pos hq, if_pos (not_not.mp hpkid)]
    exact refuses_fail _
  · exact (refuses_frame _ (Nat.lt_of_not_le hlen) _).onBuffer buf

/-! ### Reading the bytes back -/

/-- The flags are read back from the first byte. -/
theorem byte1_bits (dup : Bool) (qos : QoS) (retain : Bool) :
    (byte1 dup qos retain &&& 0b0110) >>> 1 = qos.toU8 ∧
      (byte1 dup qos retain &&& 0b1000 != 0) = dup ∧
      (byte1 dup qos retain &&& 0b0001 != 0) = retain ∧ byte1 dup qos retain >>> 4 = 3 := by
  cases dup <;> cases qos <;> cases retain <;> decide

/-- A PUBLISH that the reader can take back from its bytes. -/
structure Readable (publish : Publish) : Prop where
  topic : (asBytes publish.topic).length ≤ 65535
  pkid : publish.pkid = 0 ↔ publish.qos = .atMostOnce

/-- The flags that the reader takes from the first byte. -/
structure FlagsOf (byte1 : UInt8) (publish : Publish) : Prop where
  qos : (byte1 &&& 0b0110) >>> 1 = publish.qos.toU8
  dup : (byte1 &&& 0b1000 != 0) = publish.dup
  retain : (byte1 &&& 0b0001 != 0) = publish.retain

/-- A PUBLISH is accepted iff its body is that of a readable PUBLISH with these
flags. -/
theorem readExact_eq_ok {fh : FixedHeader} {lenBytes body : List UInt8} (h : fh.OnWire lenBytes)
    {self : Publish} :
    readExact fh (fh.byte1 :: (lenBytes ++ body)) = .ok self ↔
      FlagsOf fh.byte1 self ∧ self.Readable ∧ body = self.body := by
  rw [readExact, Outcome.bind_eq_ok]
  constructor
  · rintro ⟨qos, hqos, hbody⟩
    obtain ⟨c, hc⟩ := (readBody_eq_ok h).mp hbody
    obtain ⟨topic, t, htopic, hpart⟩ := Act.bind_eq_ok.mp hc
    obtain ⟨pkid, t', hpkid, hrest⟩ := Act.bind_eq_ok.mp hpart
    obtain ⟨hshort, rfl⟩ := readMqttString_eq_ok.mp htopic
    by_cases hzero : qos ≠ .atMostOnce ∧ pkid = 0
    · rw [if_pos hzero] at hrest
      cases hrest
    · rw [if_neg hzero] at hrest
      cases hrest
      -- a packet id is read iff the quality of service is above 0
      have hfield : t = pkidField qos pkid ++ c ∧ (pkid = 0 ↔ qos = .atMostOnce) := by
        cases qos with
        | atMostOnce =>
          cases hpkid
          exact ⟨rfl, by decide⟩
        | atLeastOnce | exactlyOnce =>
          exact ⟨readU16_eq_ok.mp hpkid, fun h0 => absurd ⟨by decide, h0⟩ hzero,
            fun hq => by cases hq⟩
      rw [hfield.1]
      exact ⟨⟨qos_eq_ok.mp hqos, rfl, rfl⟩, ⟨hshort, hfield.2⟩, rfl⟩
  · rintro ⟨hflags, hreadable, rfl⟩
    obtain ⟨dup, qos, retain, topic, pkid, payload⟩ := self
    obtain ⟨hqos, rfl, rfl⟩ := hflags
    refine ⟨qos, qos_eq_ok.mpr hqos, (readBody_eq_ok h).mpr ⟨payload, ?_⟩⟩
    have hzero : ¬(qos ≠ .atMostOnce ∧ pkid = 0) := fun hno => hno.1 (hreadable.pkid.mp hno.2)
    rw [Publish.body, Act.bind_of_ok (readMqttString_append hreadable.topic _)]
    cases qos with
    | atMostOnce =>
      obtain rfl : pkid = 0 := hreadable.pkid.mpr rfl
      rfl
    | atLeastOnce | exactlyOnce =>
      refine (Act.bind_of_ok (readU16_append pkid payload)).trans ?_
      rw [if_neg hzero]
      rfl

theorem readExact_frame {self : Publish} (h : self.Readable) (hlen : self.len ≤ 268435455) :
    readExact (frameHeader (byte1 self.dup self.qos self.retain) self.body)
      (frame (byte1 self.dup self.qos self.retain) self.body) = .ok self := by
  obtain ⟨hqos, hdup, hretain, -⟩ := byte1_bits self.dup self.qos self.retain
  have hbody : self.body.length = self.len := length_body fun hq => mt h.pkid.mp hq
  exact (readExact_eq_ok (onWire_frameHeader (by omega))).mpr ⟨⟨hqos, hdup, hretain⟩, h, rfl⟩

theorem errsIn_readExact {fh : FixedHeader} {lenBytes body : List UInt8}
    (h : fh.OnWire lenBytes) :
    (readExact fh (fh.byte1 :: (lenBytes ++ body))).ErrsIn Settled := by
  refine Outcome.ErrsIn.bind (errsIn_qos _) fun q _ => errsIn_readBody
    (errs_readMqttString.bind fun topic => .bind ?_ fun pkid => .ite (.fail rfl)
      ((Act.Errs.gets _).bind fun payload => .pure _)) h
  cases q with
  | atMostOnce => exact .pure _
  | atLeastOnce => exact errs_readU16
  | exactlyOnce => exact errs_readU16

end Publish

end Umqtt
