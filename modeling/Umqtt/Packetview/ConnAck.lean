/-
Umqtt/Packetview/ConnAck.lean

The broker's answer to a CONNECT (`packetview/connack.rs`).
-/
import Umqtt.Packetview.Fields

namespace Umqtt

open Effects Wire

/-- Return code in connack -/
inductive ConnectReturnCode where
  | success
  | refusedProtocolVersion
  | badClientId
  | serviceUnavailable
  | badUserNamePassword
  | notAuthorized
  deriving DecidableEq, Repr

namespace ConnectReturnCode

def toU8 : ConnectReturnCode → UInt8
  | success => 0
  | refusedProtocolVersion => 1
  | badClientId => 2
  | serviceUnavailable => 3
  | badUserNamePassword => 4
  | notAuthorized => 5

def isSuccess : ConnectReturnCode → Bool
  | success => true
  | _ => false

@[simp] theorem isSuccess_iff (code : ConnectReturnCode) :
    code.isSuccess = true ↔ code = success := by
  cases code <;> simp [isSuccess]

end ConnectReturnCode

/-- Connection return code type -/
def connectReturn (num : UInt8) : Outcome Error ConnectReturnCode :=
  match num.toNat with
  | 0 => .ok .success
  | 1 => .ok .refusedProtocolVersion
  | 2 => .ok .badClientId
  | 3 => .ok .serviceUnavailable
  | 4 => .ok .badUserNamePassword
  | 5 => .ok .notAuthorized
  | _ => .err (.invalidConnectReturnCode num)

theorem connectReturn_eq_ok {num : UInt8} {code : ConnectReturnCode} :
    connectReturn num = .ok code ↔ num = code.toU8 := by
  constructor
  · intro h
    have hsmall : num.toNat ≤ 5 := by
      by_contra hlt
      simp only [connectReturn] at h
      split at h <;> first | omega | cases h
    have hcases : ∀ n : Nat, n ≤ 5 → connectReturn (UInt8.ofNat n) = .ok code →
        UInt8.ofNat n = code.toU8 := by
      cases code <;> decide
    have := hcases _ hsmall
    rw [UInt8.ofNat_toNat] at this
    exact this h
  · rintro rfl
    cases code <;> rfl

/-- Acknowledgement to connect packet -/
structure ConnAck where
  sessionPresent : Bool
  code : ConnectReturnCode
  deriving DecidableEq, Repr

namespace ConnAck

def len (_self : ConnAck) : Nat := 1 + 1

def readExact (fixedHeader : FixedHeader) (bytes : List UInt8) : Outcome Error ConnAck :=
  readBody fixedHeader bytes do
    let flags ← readU8
    let returnCode ← readU8
    let sessionPresent := flags &&& 0x01 == 1
    let code ← Act.lift (connectReturn returnCode)
    pure { sessionPresent, code }

def write (self : ConnAck) : Act (List UInt8) WriteError Nat :=
  onBuffer do
    WriteCursor.putU8 0x20
    let _ ← writeRemainingLength self.len
    WriteCursor.putU8 self.sessionPresent.toUInt8
    WriteCursor.putU8 self.code.toU8
    WriteCursor.bytesWritten

def body (self : ConnAck) : List UInt8 := [self.sessionPresent.toUInt8, self.code.toU8]

theorem writes (self : ConnAck) :
    Writes WriteError.notEnoughCapacity self.write (frame 0x20 self.body) :=
  (fills_frame 0x20 self.body
    ((WriteCursor.emits_putU8 _).bindFills ((WriteCursor.emits_putU8 _).bindFills fills_len))
    rfl (by simp [body])).writes

/-- The reader looks at one bit of the flags, and ignores what follows the return
code. -/
theorem readExact_eq_ok {fh : FixedHeader} {lenBytes body : List UInt8} (h : fh.OnWire lenBytes)
    {self : ConnAck} :
    readExact fh (fh.byte1 :: (lenBytes ++ body)) = .ok self ↔
      ∃ flags ignored, body = flags :: self.code.toU8 :: ignored ∧
        self.sessionPresent = (flags &&& 0x01 == 1) := by
  rw [readExact, readBody_eq_ok h]
  constructor
  · rintro ⟨c, hc⟩
    obtain ⟨flags, t, hflags, hc⟩ := Act.bind_eq_ok.mp hc
    obtain ⟨returnCode, t', hcode, hc⟩ := Act.bind_eq_ok.mp hc
    obtain ⟨code, t'', hreturn, hc⟩ := Act.bind_eq_ok.mp hc
    cases hc
    obtain rfl := connectReturn_eq_ok.mp (congrArg Prod.fst hreturn)
    rw [readU8_eq_ok.mp hcode] at hflags
    exact ⟨flags, t', readU8_eq_ok.mp hflags, rfl⟩
  · rintro ⟨flags, ignored, rfl, hsession⟩
    refine ⟨ignored, ?_⟩
    rw [Act.bind_of_ok (readU8_cons _ _), Act.bind_of_ok (readU8_cons _ _)]
    simp only [connectReturn_eq_ok.mpr rfl, Act.bind_apply, Act.lift_apply, ← hsession]
    rfl

theorem readExact_frame (self : ConnAck) :
    readExact (frameHeader 0x20 self.body) (frame 0x20 self.body) = .ok self := by
  rw [readExact, readBody_frame (by simp [body]), body, Act.bind_of_ok (readU8_cons _ _),
    Act.bind_of_ok (readU8_cons _ _)]
  obtain ⟨sessionPresent, code⟩ := self
  cases sessionPresent <;> cases code <;> rfl

theorem errsIn_readExact {fh : FixedHeader} {lenBytes body : List UInt8}
    (h : fh.OnWire lenBytes) :
    (readExact fh (fh.byte1 :: (lenBytes ++ body))).ErrsIn Settled := by
  refine errsIn_readBody (errs_readU8.bind fun flags => errs_readU8.bind fun returnCode =>
    (Act.Errs.lift ?_).bind fun code => .pure _) h
  unfold connectReturn
  split <;> simp [Outcome.ErrsIn, Settled, Error.isNeedMoreData]

end ConnAck

end Umqtt
