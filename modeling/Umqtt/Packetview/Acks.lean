/-
Umqtt/Packetview/Acks.lean

The packets that carry a packet id and nothing else (`packetview/puback.rs`,
`pubrec.rs`, `pubrel.rs`, `pubcomp.rs`, `unsuback.rs`), and the packets without
a body (`ping.rs`, `disconnect.rs`).

Four of the five readers accept any body that starts with a packet id; `UnsubAck`
alone insists on a body of two bytes.
-/
import Umqtt.Packetview.Fields

namespace Umqtt

open Effects Wire

/-- Acknowledgement to QoS1 publish -/
structure PubAck where
  pkid : UInt16
  deriving DecidableEq, Repr

/-- Acknowledgement to QoS2 publish -/
structure PubRec where
  pkid : UInt16
  deriving DecidableEq, Repr

/-- QoS2 Publish release, in response to PUBREC packet -/
structure PubRel where
  pkid : UInt16
  deriving DecidableEq, Repr

/-- QoS2 Assured publish complete, in response to PUBREL packet -/
structure PubComp where
  pkid : UInt16
  deriving DecidableEq, Repr

/-- Acknowledgement to unsubscribe -/
structure UnsubAck where
  pkid : UInt16
  deriving DecidableEq, Repr

/-! ### Readers -/

/-- The reader that PUBACK, PUBREL and PUBCOMP share. -/
def readAck {α : Type} (mk : UInt16 → α) (fixedHeader : FixedHeader) (bytes : List UInt8) :
    Outcome Error α :=
  readBody fixedHeader bytes do
    let pkid ← readU16
    -- No reason code or properties if remaining length == 2
    if fixedHeader.remainingLen = 2 then
      pure (mk pkid)
    -- No properties len or properties if remaining len > 2 but < 4
    else if fixedHeader.remainingLen < 4 then
      pure (mk pkid)
    else
      pure (mk pkid)

def PubAck.readExact : FixedHeader → List UInt8 → Outcome Error PubAck := readAck PubAck.mk

def PubRel.readExact : FixedHeader → List UInt8 → Outcome Error PubRel := readAck PubRel.mk

def PubComp.readExact : FixedHeader → List UInt8 → Outcome Error PubComp := readAck PubComp.mk

def PubRec.readExact (fixedHeader : FixedHeader) (bytes : List UInt8) : Outcome Error PubRec :=
  readBody fixedHeader bytes do
    let pkid ← readU16
    pure { pkid }

def UnsubAck.readExact (fixedHeader : FixedHeader) (bytes : List UInt8) :
    Outcome Error UnsubAck :=
  if fixedHeader.remainingLen ≠ 2 then
    .err .malformedPacket
  else
    readBody fixedHeader bytes do
      let pkid ← readU16
      pure { pkid }

/-! ### Writers -/

/-- The writer of a packet that is its first byte and a packet id. -/
def writeAck (byte1 : UInt8) (pkid : UInt16) : Act (List UInt8) WriteError Nat :=
  onBuffer do
    WriteCursor.putU8 byte1
    let _ ← writeRemainingLength 2
    WriteCursor.putU16 pkid
    WriteCursor.bytesWritten

def PubAck.write (self : PubAck) : Act (List UInt8) WriteError Nat := writeAck 0x40 self.pkid

def PubRec.write (self : PubRec) : Act (List UInt8) WriteError Nat := writeAck 0x50 self.pkid

def PubRel.write (self : PubRel) : Act (List UInt8) WriteError Nat := writeAck 0x62 self.pkid

def PubComp.write (self : PubComp) : Act (List UInt8) WriteError Nat := writeAck 0x70 self.pkid

def UnsubAck.write (self : UnsubAck) : Act (List UInt8) WriteError Nat :=
  onBuffer do
    WriteCursor.putSlice [0xB0, 0x02]
    WriteCursor.putU16 self.pkid
    WriteCursor.bytesWritten

/-- The writer of a packet without a body. -/
def writeEmpty (byte1 : UInt8) : Act (List UInt8) WriteError Nat :=
  onBuffer do
    WriteCursor.putSlice [byte1, 0x00]
    pure 2

def PingReq.write : Act (List UInt8) WriteError Nat := writeEmpty 0xC0

def PingResp.write : Act (List UInt8) WriteError Nat := writeEmpty 0xD0

def Disconnect.write : Act (List UInt8) WriteError Nat := writeEmpty 0xE0

/-! ### What the readers accept -/

section Readers

variable {α : Type} {fh : FixedHeader} {lenBytes body : List UInt8}

theorem readAck_eq (mk : UInt16 → α) (fh : FixedHeader) (bytes : List UInt8) :
    readAck mk fh bytes = readBody fh bytes (do pure (mk (← readU16))) := by
  simp only [readAck, ite_self]

/-- Four of the five readers ignore what follows the packet id. -/
theorem readAck_eq_ok {mk : UInt16 → α} (h : fh.OnWire lenBytes) {a : α} :
    readAck mk fh (fh.byte1 :: (lenBytes ++ body)) = .ok a ↔
      ∃ pkid ignored, body = toBeBytes pkid ++ ignored ∧ a = mk pkid := by
  rw [readAck_eq, readBody_eq_ok h]
  constructor
  · rintro ⟨c, hc⟩
    obtain ⟨pkid, t, hread, hpure⟩ := Act.bind_eq_ok.mp hc
    cases hpure
    exact ⟨pkid, c, readU16_eq_ok.mp hread, rfl⟩
  · rintro ⟨pkid, ignored, rfl, rfl⟩
    exact ⟨ignored, Act.bind_of_ok (readU16_append _ _)⟩

theorem readAck_frame (mk : UInt16 → α) (byte1 : UInt8) (pkid : UInt16) :
    readAck mk (frameHeader byte1 (toBeBytes pkid)) (frame byte1 (toBeBytes pkid)) =
      .ok (mk pkid) := by
  have hread : readU16 (toBeBytes pkid) = (.ok pkid, []) :=
    readU16_eq_ok.mpr (List.append_nil _).symm
  rw [readAck_eq, readBody_frame (by simp), Act.bind_of_ok hread, Act.pure_apply]

theorem errsIn_readAck (mk : UInt16 → α) (h : fh.OnWire lenBytes) :
    (readAck mk fh (fh.byte1 :: (lenBytes ++ body))).ErrsIn Settled := by
  rw [readAck_eq]
  exact errsIn_readBody (errs_readU16.bind fun _ => .pure _) h

theorem PubRec.readExact_eq (fh : FixedHeader) (bytes : List UInt8) :
    PubRec.readExact fh bytes = readAck PubRec.mk fh bytes := by
  rw [readAck_eq, PubRec.readExact]

/-- The reader that insists on a body of two bytes. -/
theorem UnsubAck.readExact_eq_ok (h : fh.OnWire lenBytes) (hbody : body.length = fh.remainingLen)
    {a : UnsubAck} :
    UnsubAck.readExact fh (fh.byte1 :: (lenBytes ++ body)) = .ok a ↔ body = toBeBytes a.pkid := by
  by_cases h2 : fh.remainingLen = 2
  · rw [readExact, if_neg (not_not.mpr h2), readBody_eq_ok h]
    constructor
    · rintro ⟨c, hc⟩
      obtain ⟨pkid, t, hread, hpure⟩ := Act.bind_eq_ok.mp hc
      cases hpure
      have hc := readU16_eq_ok.mp hread
      have hlen := congrArg List.length hc
      rw [hbody, h2, List.length_append, length_toBeBytes] at hlen
      obtain rfl := List.eq_nil_of_length_eq_zero (Nat.add_left_cancel hlen).symm
      rwa [List.append_nil] at hc
    · rintro rfl
      exact ⟨[], by rw [← List.append_nil (toBeBytes _), Act.bind_of_ok (readU16_append _ _)]; rfl⟩
  · rw [readExact, if_pos h2]
    constructor
    · rintro ⟨⟩
    · rintro rfl
      exact absurd hbody.symm h2

theorem UnsubAck.readExact_frame (pkid : UInt16) :
    UnsubAck.readExact (frameHeader 0xB0 (toBeBytes pkid)) (frame 0xB0 (toBeBytes pkid)) =
      .ok ⟨pkid⟩ := by
  have h := readAck_frame UnsubAck.mk 0xB0 pkid
  rw [readAck_eq] at h
  rw [UnsubAck.readExact, if_neg (by simp [frameHeader])]
  exact h

theorem UnsubAck.errsIn_readExact (h : fh.OnWire lenBytes) :
    (UnsubAck.readExact fh (fh.byte1 :: (lenBytes ++ body))).ErrsIn Settled := by
  rw [UnsubAck.readExact]
  split
  · exact rfl
  · exact errsIn_readBody (errs_readU16.bind fun _ => .pure _) h

end Readers

/-! ### What the writers produce -/

theorem writes_writeAck (byte1 : UInt8) (pkid : UInt16) :
    Writes WriteError.notEnoughCapacity (writeAck byte1 pkid) (frame byte1 (toBeBytes pkid)) :=
  (fills_frame byte1 (toBeBytes pkid)
    ((WriteCursor.emits_putU16 pkid).bindFills fills_len) rfl (by simp)).writes

theorem writes_unsubAck (self : UnsubAck) :
    Writes WriteError.notEnoughCapacity self.write (frame 0xB0 (toBeBytes self.pkid)) := by
  rw [frame_of_lt (by simp)]
  exact ((WriteCursor.emits_putSlice [0xB0, 0x02]).bindFills
    ((WriteCursor.emits_putU16 self.pkid).bindFills fills_len)).writes

theorem writes_writeEmpty (byte1 : UInt8) :
    Writes WriteError.notEnoughCapacity (writeEmpty byte1) (frame byte1 []) := by
  rw [frame_of_lt (by simp)]
  have h : Emits WriteError.notEnoughCapacity
      (do WriteCursor.putSlice [byte1, 0x00]; pure 2) [byte1, 0x00] 2 :=
    (WriteCursor.emits_putSlice [byte1, 0x00]).bind .pure
  exact h.writes

end Umqtt
