/-
Umqtt/Packetview/Connect.lean

The CONNECT packet (`packetview/connect.rs`).

The writer emits the flags byte before it knows all flags, and patches it once
the will and the login are written: each of these returns its own flags with
the fields it wrote.  `connectFlags` is the byte that ends up on the wire, and
the reader is shown to take each optional field back from its bits.
-/
import Umqtt.Packetview.Fields

namespace Umqtt

open Effects Wire

/-! ### Login -/

structure Login where
  username : String
  password : List UInt8
  deriving DecidableEq

namespace Login

def read (connectFlags : UInt8) : Act Cursor Error (Option Login) := do
  let username ← (if connectFlags &&& 0b1000_0000 = 0 then pure "" else readMqttString :
    Act Cursor Error String)
  let password ← (if connectFlags &&& 0b0100_0000 = 0 then pure [] else readMqttBytes :
    Act Cursor Error (List UInt8))
  if (asBytes username).isEmpty && password.isEmpty then
    pure none
  else
    pure (some { username, password })

def len (self : Login) : Nat :=
  (if !(asBytes self.username).isEmpty then 2 + (asBytes self.username).length else 0) +
    (if !self.password.isEmpty then 2 + self.password.length else 0)

def write (self : Login) : Act WriteCursor WriteError UInt8 := do
  let connectFlags ← (if !(asBytes self.username).isEmpty then do
      writeMqttString self.username
      pure 0x80
    else
      pure 0 : Act WriteCursor WriteError UInt8)
  if !self.password.isEmpty then do
    writeMqttBytes self.password
    pure (connectFlags ||| 0x40)
  else
    pure connectFlags

/-- The fields of a login on the wire. -/
def fields (self : Login) : List UInt8 :=
  (if !(asBytes self.username).isEmpty then lenPrefixed (asBytes self.username) else []) ++
    (if !self.password.isEmpty then lenPrefixed self.password else [])

def flags (self : Login) : UInt8 :=
  (if !(asBytes self.username).isEmpty then 0x80 else 0) |||
    (if !self.password.isEmpty then 0x40 else 0)

/-- A login whose fields fit behind a 16-bit length and are not both empty. -/
def Short (self : Login) : Prop :=
  (asBytes self.username).length ≤ 65535 ∧ self.password.length ≤ 65535 ∧
    ¬(self.username = "" ∧ self.password = [])

theorem length_fields (self : Login) : self.fields.length = self.len := by
  rw [fields, len, List.length_append]
  split <;> split <;> simp

theorem emits_write (self : Login) :
    Emits WriteError.notEnoughCapacity self.write self.fields self.flags := by
  refine Emits.bind (a := if !(asBytes self.username).isEmpty then 0x80 else 0) ?_ ?_
  · split
    · exact (emits_writeMqttString _).map fun _ => 0x80
    · exact .pure
  · rw [flags]
    split
    · exact (emits_writeMqttBytes _).map fun _ => _
    · exact Emits.pure.congrValue (by simp)

end Login

/-! ### Last will -/

/-- LastWill that broker forwards on behalf of the client -/
structure LastWill where
  topic : String
  message : List UInt8
  qos : QoS
  retain : Bool
  deriving DecidableEq

namespace LastWill

def read (connectFlags : UInt8) : Act Cursor Error (Option LastWill) :=
  if connectFlags &&& 0b100 = 0 then
    if connectFlags &&& 0b0011_1000 ≠ 0 then
      Act.fail .malformedPacket
    else
      pure none
  else do
    let willTopic ← readMqttString
    let willMessage ← readMqttBytes
    let willQos ← Act.lift (Umqtt.qos ((connectFlags &&& 0b11000) >>> 3))
    pure (some
      { topic := willTopic
        message := willMessage
        qos := willQos
        retain := connectFlags &&& 0b0010_0000 != 0 })

def len (self : LastWill) : Nat := 2 + (asBytes self.topic).length + 2 + self.message.length

def write (self : LastWill) : Act WriteCursor WriteError UInt8 := do
  let connectFlags : UInt8 := (0x04 : UInt8) ||| (self.qos.toU8 <<< 3)
  let connectFlags := if self.retain then connectFlags ||| 0x20 else connectFlags
  writeMqttString self.topic
  writeMqttBytes self.message
  pure connectFlags

/-- The fields of a will on the wire. -/
def fields (self : LastWill) : List UInt8 :=
  lenPrefixed (asBytes self.topic) ++ lenPrefixed self.message

def flags (self : LastWill) : UInt8 :=
  if self.retain then (0x04 : UInt8) ||| (self.qos.toU8 <<< 3) ||| 0x20
  else (0x04 : UInt8) ||| (self.qos.toU8 <<< 3)

/-- A will whose fields fit behind a 16-bit length. -/
def Short (self : LastWill) : Prop :=
  (asBytes self.topic).length ≤ 65535 ∧ self.message.length ≤ 65535

theorem length_fields (self : LastWill) : self.fields.length = self.len := by
  simp only [fields, len, List.length_append, length_lenPrefixed]
  omega

theorem emits_write (self : LastWill) :
    Emits WriteError.notEnoughCapacity self.write self.fields self.flags :=
  (emits_writeMqttString _).bind ((emits_writeMqttBytes _).map fun _ => self.flags)

end LastWill

/-! ### Connect -/

structure ConnectOptions where
  clientId : String
  lastWill : Option LastWill
  login : Option Login
  keepAlive : UInt16
  cleanSession : Bool
  deriving DecidableEq

/-- Connection packet initiated by the client -/
structure Connect where
  /-- Protocol level -/
  protocol : Protocol
  /-- Mqtt keep alive time -/
  keepAlive : UInt16
  /-- Client Id -/
  clientId : String
  /-- Clean session. Asks the broker to clear previous state -/
  cleanSession : Bool
  /-- Will that broker needs to publish when the client disconnects -/
  lastWill : Option LastWill
  /-- Login credentials -/
  login : Option Login
  deriving DecidableEq

def ConnectOptions.asConnect (self : ConnectOptions) : Connect where
  cleanSession := self.cleanSession
  keepAlive := self.keepAlive
  clientId := self.clientId
  login := self.login
  lastWill := self.lastWill
  protocol := .v4

namespace Connect

/-- `if let Some(part) = o { connect_flags |= part.write(buffer)?; }` -/
def orFlags {α : Type} (o : Option α) (write : α → Act WriteCursor WriteError UInt8)
    (connectFlags : UInt8) : Act WriteCursor WriteError UInt8 :=
  match o with
  | some part => do
      let flags ← write part
      pure (connectFlags ||| flags)
  | none => pure connectFlags

def readExact (fixedHeader : FixedHeader) (bytes : List UInt8) : Outcome Error Connect :=
  readBody fixedHeader bytes do
    let protocolName ← readMqttString
    let protocolLevel ← readU8
    if protocolName ≠ "MQTT" then
      Act.fail .invalidProtocol
    else
      let protocol ← (match protocolLevel.toNat with
        | 4 => pure Protocol.v4
        | _ => Act.fail (.invalidProtocolLevel protocolLevel) : Act Cursor Error Protocol)
      let connectFlags ← readU8
      let cleanSession := connectFlags &&& 0b10 != 0
      let keepAlive ← readU16
      let clientId ← readMqttString
      let lastWill ← LastWill.read connectFlags
      let login ← Login.read connectFlags
      pure { protocol, keepAlive, clientId, cleanSession, lastWill, login }

def len (self : Connect) : Nat :=
  2 + (asBytes "MQTT").length + 1 + 1 + 2 + (2 + (asBytes self.clientId).length) +
    (match self.lastWill with
      | some lastWill => lastWill.len
      | none => 0) +
    (match self.login with
      | some login => login.len
      | none => 0)

def write (self : Connect) : Act (List UInt8) WriteError Nat :=
  onBuffer do
    WriteCursor.putU8 0b0001_0000
    let _ ← writeRemainingLength self.len
    writeMqttString "MQTT"
    (match self.protocol with
      | .v4 => WriteCursor.putU8 0x04
      | .v5 => WriteCursor.putU8 0x05)
    let connectFlags : UInt8 := if self.cleanSession then 0x02 else 0
    let connectFlagsIndex ← WriteCursor.bytesWritten
    WriteCursor.putU8 connectFlags
    WriteCursor.putU16 self.keepAlive
    writeMqttString self.clientId
    let connectFlags ← orFlags self.lastWill LastWill.write connectFlags
    let connectFlags ← orFlags self.login Login.write connectFlags
    Filled.patch connectFlagsIndex connectFlags
    WriteCursor.bytesWritten

/-! ### The bytes of a CONNECT -/

def level : Protocol → UInt8
  | .v4 => 0x04
  | .v5 => 0x05

/-- The flags byte that ends up on the wire. -/
def connectFlags (self : Connect) : UInt8 :=
  (if self.cleanSession then 0x02 else 0) ||| self.lastWill.elim 0 LastWill.flags |||
    self.login.elim 0 Login.flags

/-- What follows the flags byte. -/
def afterFlags (self : Connect) : List UInt8 :=
  toBeBytes self.keepAlive ++ lenPrefixed (asBytes self.clientId) ++
    self.lastWill.elim [] LastWill.fields ++ self.login.elim [] Login.fields

def body (self : Connect) : List UInt8 :=
  lenPrefixed (asBytes "MQTT") ++ [level self.protocol] ++
    self.connectFlags :: self.afterFlags

theorem length_body (self : Connect) : self.body.length = self.len := by
  have hwill : (self.lastWill.elim [] LastWill.fields).length =
      (match self.lastWill with | some w => w.len | none => 0) := by
    cases self.lastWill with
    | none => rfl
    | some w => exact w.length_fields
  have hlogin : (self.login.elim [] Login.fields).length =
      (match self.login with | some l => l.len | none => 0) := by
    cases self.login with
    | none => rfl
    | some l => exact l.length_fields
  simp only [body, afterFlags, List.length_append, List.length_cons, List.length_nil,
    length_lenPrefixed, length_toBeBytes, hwill, hlogin, len]
  omega

theorem emits_orFlags {α : Type} (o : Option α) {w : α → Act WriteCursor WriteError UInt8}
    {fields : α → List UInt8} {flags : α → UInt8} (f : UInt8)
    (hw : ∀ a, Emits WriteError.notEnoughCapacity (w a) (fields a) (flags a)) :
    Emits WriteError.notEnoughCapacity (orFlags o w f) (o.elim [] fields)
      (f ||| o.elim 0 flags) := by
  cases o with
  | none => exact Emits.pure.congrValue (by simp)
  | some a =>
    exact (hw a).map fun flags => f ||| flags

theorem writes {self : Connect} (h : self.len ≤ 268435455) :
    Writes WriteError.notEnoughCapacity self.write (frame 0x10 self.body) := by
  have hhead : Emits WriteError.notEnoughCapacity
      (do WriteCursor.putU8 0b0001_0000
          let _ ← writeRemainingLength self.len
          writeMqttString "MQTT"
          (match self.protocol with
            | .v4 => WriteCursor.putU8 0x04
            | .v5 => WriteCursor.putU8 0x05))
      ([0x10] ++ (base128 self.len ++ (lenPrefixed (asBytes "MQTT") ++ [level self.protocol])))
      () := by
    refine (WriteCursor.emits_putU8 _).bind ((emits_writeRemainingLength h).bind
      ((emits_writeMqttString _).bind ?_))
    cases self.protocol <;> exact WriteCursor.emits_putU8 _
  -- the byte for the flags is written first and patched once the fields are written
  have htail : Emits WriteError.notEnoughCapacity
      (do WriteCursor.putU8 (if self.cleanSession then 0x02 else 0)
          WriteCursor.putU16 self.keepAlive
          writeMqttString self.clientId
          let connectFlags ← orFlags self.lastWill LastWill.write
            (if self.cleanSession then 0x02 else 0)
          orFlags self.login Login.write connectFlags)
      ((if self.cleanSession then 0x02 else 0) :: self.afterFlags) self.connectFlags := by
    refine ((WriteCursor.emits_putU8 _).bind ((WriteCursor.emits_putU16 _).bind
      ((emits_writeMqttString _).bind ((emits_orFlags self.lastWill _ LastWill.emits_write).bind
        (emits_orFlags self.login _ Login.emits_write))))).congr ?_
    simp [afterFlags]
  have hpatch := writes_patch hhead htail
  simp only [Act.bind_assoc] at hpatch
  rw [frame, length_body, body]
  unfold write WriteCursor.bytesWritten
  simpa only [List.append_assoc, List.cons_append, List.nil_append] using hpatch

/-- The CONNECT can be encoded into `n` bytes. -/
def Fits (self : Connect) (n : Nat) : Prop :=
  self.len ≤ 268435455 ∧ (frame 0x10 self.body).length ≤ n

instance (self : Connect) (n : Nat) : Decidable (self.Fits n) := inferInstanceAs (Decidable (_ ∧ _))

/-- The shortest CONNECT has 14 bytes. -/
theorem Fits.le {self : Connect} {n : Nat} (h : self.Fits n) : 14 ≤ n := by
  have hlen := self.length_body
  have hframe := h.2
  have hbase := List.length_pos_iff.mpr (terminated_base128 self.body.length).ne_nil
  have hname : (asBytes "MQTT").length = 4 := by decide
  simp only [frame, List.length_cons, List.length_append, len, hname] at hframe hlen
  omega

theorem write_of_fits {self : Connect} {buf : List UInt8} (h : self.Fits buf.length) :
    self.write buf = (.ok (frame 0x10 self.body).length, overwrite buf 0 (frame 0x10 self.body)) :=
  (writes h.1 buf).1 h.2

theorem write_of_not_fits {self : Connect} {buf : List UInt8} (h : ¬self.Fits buf.length) :
    ∃ e buf', self.write buf = (.err e, buf') ∧ buf'.length = buf.length := by
  by_cases hlen : self.len ≤ 268435455
  · obtain ⟨buf', hbuf, hl⟩ := (writes hlen buf).2 (Nat.lt_of_not_le fun hle => h ⟨hlen, hle⟩)
    exact ⟨_, buf', hbuf, hl⟩
  · exact (refuses_frame 0b0001_0000 (Nat.lt_of_not_le hlen) _).onBuffer buf

/-! ### Reading the bytes back -/

/-- What a reader of the flags byte `f` makes of its bits. -/
structure FlagsOf (f : UInt8) (cleanSession : Bool) (will : Option LastWill)
    (login : Option Login) : Prop where
  clean : (f &&& 0b10 != 0) = cleanSession
  willFlag : f &&& 0b100 = 0 ↔ will = none
  noWill : will = none → f &&& 0b0011_1000 = 0
  willQos : ∀ w, will = some w → (f &&& 0b11000) >>> 3 = w.qos.toU8
  willRetain : ∀ w, will = some w → (f &&& 0b0010_0000 != 0) = w.retain
  username : f &&& 0b1000_0000 = 0 ↔ login.elim true (fun l => (asBytes l.username).isEmpty)
  password : f &&& 0b0100_0000 = 0 ↔ login.elim true (fun l => l.password.isEmpty)

/-- The three sources of flags use different bits. -/
theorem flags_bits (c : Bool) (will : Option (QoS × Bool)) (user pass : Bool) :
    let w : UInt8 := will.elim 0 fun w =>
      if w.2 then (0x04 : UInt8) ||| (w.1.toU8 <<< 3) ||| 0x20
      else (0x04 : UInt8) ||| (w.1.toU8 <<< 3)
    let f : UInt8 := (if c then 0x02 else 0) ||| w |||
      ((if user then 0x80 else 0) ||| (if pass then 0x40 else 0))
    (f &&& 0b10 != 0) = c ∧ (f &&& 0b100 = 0 ↔ will = none) ∧
      (will = none → f &&& 0b0011_1000 = 0) ∧
      (∀ w ∈ will, (f &&& 0b11000) >>> 3 = w.1.toU8 ∧ (f &&& 0b0010_0000 != 0) = w.2) ∧
      (f &&& 0b1000_0000 = 0 ↔ user = false) ∧ (f &&& 0b0100_0000 = 0 ↔ pass = false) ∧
      f &&& 0b0000_0001 = 0 ∧ f &&& 0b0001_1000 ≠ 0b0001_1000 := by
  rcases will with - | ⟨q, r⟩
  -- with the will fixed or absent there are finitely many flags bytes
  · cases c <;> cases user <;> cases pass <;> decide
  · cases c <;> cases user <;> cases pass <;> cases q <;> cases r <;> decide

theorem connectFlags_eq (self : Connect) : self.connectFlags =
    (if self.cleanSession then 0x02 else 0) |||
      ((self.lastWill.map fun w => (w.qos, w.retain)).elim 0 fun w =>
        if w.2 then (0x04 : UInt8) ||| (w.1.toU8 <<< 3) ||| 0x20
        else (0x04 : UInt8) ||| (w.1.toU8 <<< 3)) |||
      ((if self.login.elim false (fun l => !(asBytes l.username).isEmpty) then 0x80 else 0) |||
        (if self.login.elim false (fun l => !l.password.isEmpty) then 0x40 else 0)) := by
  obtain ⟨_, _, _, c, w, l⟩ := self
  cases w <;> cases l <;> simp [connectFlags, LastWill.flags, Login.flags]

theorem flagsOf_connectFlags (self : Connect) :
    FlagsOf self.connectFlags self.cleanSession self.lastWill self.login := by
  obtain ⟨h₁, h₂, h₃, h₄, h₅, h₆, -⟩ := flags_bits self.cleanSession
    (self.lastWill.map fun w => (w.qos, w.retain))
    (self.login.elim false fun l => !(asBytes l.username).isEmpty)
    (self.login.elim false fun l => !l.password.isEmpty)
  simp only [← connectFlags_eq, Option.map_eq_none_iff] at h₁ h₂ h₃ h₄ h₅ h₆
  refine ⟨h₁, h₂, h₃, fun w hw => (h₄ (w.qos, w.retain) (by simp [hw])).1,
    fun w hw => (h₄ (w.qos, w.retain) (by simp [hw])).2, ?_, ?_⟩
  · rw [h₅]
    cases self.login <;> simp
  · rw [h₆]
    cases self.login <;> simp

/-- The lowest bit is reserved, and there is no quality of service 3. -/
theorem connectFlags_reserved (self : Connect) :
    self.connectFlags &&& 0b0000_0001 = 0 ∧
      self.connectFlags &&& 0b0001_1000 ≠ 0b0001_1000 := by
  rw [connectFlags_eq]
  exact (flags_bits _ _ _ _).2.2.2.2.2.2

theorem isEmpty_asBytes {s : String} : (asBytes s).isEmpty = true ↔ s = "" := by
  rw [List.isEmpty_iff]
  exact asBytes_inj (t := "")

/-- `field` is the field with the bytes `bs` that the flags byte `f` announces by
its bit `bit`: it is there iff the bit is set. -/
def Announced (f bit : UInt8) (bs field : List UInt8) : Prop :=
  (f &&& bit = 0 ∧ bs = [] ∧ field = []) ∨
    (f &&& bit ≠ 0 ∧ bs.length ≤ 65535 ∧ field = lenPrefixed bs)

/-- `field` is the will that the flags byte `f` announces. -/
def WillField (f : UInt8) (will : Option LastWill) (field : List UInt8) : Prop :=
  (f &&& 0b100 = 0 ∧ f &&& 0b0011_1000 = 0 ∧ will = none ∧ field = []) ∨
    (f &&& 0b100 ≠ 0 ∧ ∃ w : LastWill, (f &&& 0b11000) >>> 3 = w.qos.toU8 ∧
      (f &&& 0b0010_0000 != 0) = w.retain ∧ w.Short ∧ will = some w ∧ field = w.fields)

/-- `field` is the login that the flags byte `f` announces.  An announced login
without any byte counts as none. -/
def LoginField (f : UInt8) (login : Option Login) (field : List UInt8) : Prop :=
  ∃ (username : String) (password userField passField : List UInt8),
    Announced f 0b1000_0000 (asBytes username) userField ∧
      Announced f 0b0100_0000 password passField ∧
      login = (if (asBytes username).isEmpty && password.isEmpty then none
        else some { username, password }) ∧
      field = userField ++ passField

section Fields

variable {f : UInt8} {will : Option LastWill} {login : Option Login} {c c' : Cursor}

theorem read_lastWill_eq_ok :
    LastWill.read f c = (.ok will, c') ↔ ∃ field, WillField f will field ∧ c = field ++ c' := by
  by_cases hbit : f &&& 0b100 = 0
  · rw [LastWill.read, if_pos hbit]
    by_cases hzero : f &&& 0b0011_1000 = 0
    · rw [if_neg (not_not.mpr hzero)]
      constructor
      · rintro ⟨⟩
        exact ⟨[], .inl ⟨hbit, hzero, rfl, rfl⟩, rfl⟩
      · rintro ⟨field, ⟨-, -, rfl, rfl⟩ | ⟨hset, -⟩, rfl⟩
        · rfl
        · exact absurd hbit hset
    · rw [if_pos hzero]
      constructor
      · rintro ⟨⟩
      · rintro ⟨field, ⟨-, hz, -⟩ | ⟨hset, -⟩, -⟩
        · exact absurd hz hzero
        · exact absurd hbit hset
  · rw [LastWill.read, if_neg hbit]
    constructor
    · intro hread
      obtain ⟨topic, t, htopic, hread₁⟩ := Act.bind_eq_ok.mp hread
      obtain ⟨message, t', hmessage, hread₂⟩ := Act.bind_eq_ok.mp hread₁
      obtain ⟨q, t'', hq, hread₃⟩ := Act.bind_eq_ok.mp hread₂
      obtain ⟨hshort, rfl⟩ := readMqttString_eq_ok.mp htopic
      obtain ⟨hshort', rfl⟩ := readMqttBytes_eq_ok.mp hmessage
      have hqos := qos_eq_ok.mp (congrArg Prod.fst hq)
      obtain rfl : t' = t'' := congrArg Prod.snd hq
      cases hread₃
      exact ⟨_, .inr ⟨hbit, ⟨topic, message, q, f &&& 0b0010_0000 != 0⟩, hqos, rfl,
        ⟨hshort, hshort'⟩, rfl, rfl⟩, (List.append_assoc _ _ _).symm⟩
    · rintro ⟨field, ⟨hz, -⟩ | ⟨-, w, hq, hretain, ⟨ht, hm⟩, rfl, rfl⟩, rfl⟩
      · exact absurd hz hbit
      · simp only [LastWill.fields, List.append_assoc, Act.bind_apply, readMqttString_append ht,
          readMqttBytes_append hm, hq, qos_toU8, Act.lift_apply, Act.pure_apply, hretain]

/-- A field that is read iff its bit is set. -/
theorem read_announced_eq_ok {α : Type} {bit : UInt8} {x : Act Cursor Error α} {a empty : α}
    {bytes : α → List UInt8}
    (hx : ∀ {c}, x c = (.ok a, c') ↔ (bytes a).length ≤ 65535 ∧ c = lenPrefixed (bytes a) ++ c')
    (hempty : bytes a = [] ↔ empty = a) :
    (if f &&& bit = 0 then pure empty else x : Act Cursor Error α) c = (.ok a, c') ↔
      ∃ field, Announced f bit (bytes a) field ∧ c = field ++ c' := by
  by_cases hbit : f &&& bit = 0
  · rw [if_pos hbit]
    constructor
    · intro h
      obtain ⟨ha, rfl⟩ := Prod.mk.inj h
      exact ⟨[], .inl ⟨hbit, hempty.mpr (Outcome.ok.inj ha), rfl⟩, rfl⟩
    · rintro ⟨field, ⟨-, hnil, rfl⟩ | ⟨hset, -⟩, rfl⟩
      · rw [hempty.mp hnil]
        rfl
      · exact absurd hbit hset
  · rw [if_neg hbit, hx]
    constructor
    · exact fun ⟨hshort, hc⟩ => ⟨_, .inr ⟨hbit, hshort, rfl⟩, hc⟩
    · rintro ⟨field, ⟨hz, -⟩ | ⟨-, hshort, rfl⟩, rfl⟩
      · exact absurd hz hbit
      · exact ⟨hshort, rfl⟩

theorem read_login_eq_ok :
    Login.read f c = (.ok login, c') ↔ ∃ field, LoginField f login field ∧ c = field ++ c' := by
  have huser := fun (u : String) (d d' : Cursor) => @read_announced_eq_ok f d d' String
    0b1000_0000 readMqttString u "" asBytes readMqttString_eq_ok
    ⟨fun h => (asBytes_inj (t := "").mp h).symm, fun h => h ▸ rfl⟩
  have hpass := fun (p : List UInt8) (d d' : Cursor) => @read_announced_eq_ok f d d' (List UInt8)
    0b0100_0000 readMqttBytes p [] id readMqttBytes_eq_ok eq_comm
  rw [Login.read]
  constructor
  · intro hread
    obtain ⟨username, t, hu, hread₁⟩ := Act.bind_eq_ok.mp hread
    obtain ⟨password, t', hp, hread₂⟩ := Act.bind_eq_ok.mp hread₁
    obtain ⟨userField, huserField, rfl⟩ := (huser username _ _).mp hu
    obtain ⟨passField, hpassField, rfl⟩ := (hpass password _ _).mp hp
    have hlogin : login = (if (asBytes username).isEmpty && password.isEmpty then none
        else some { username, password }) ∧ t' = c' := by
      by_cases hempty : ((asBytes username).isEmpty && password.isEmpty) = true
      · rw [if_pos hempty] at hread₂ ⊢
        cases hread₂
        exact ⟨rfl, rfl⟩
      · rw [if_neg hempty] at hread₂ ⊢
        cases hread₂
        exact ⟨rfl, rfl⟩
    obtain ⟨rfl, rfl⟩ := hlogin
    exact ⟨_, ⟨username, password, userField, passField, huserField, hpassField, rfl, rfl⟩,
      (List.append_assoc _ _ _).symm⟩
  · rintro ⟨_, ⟨username, password, userField, passField, hu, hp, rfl, rfl⟩, rfl⟩
    rw [List.append_assoc, Act.bind_of_ok ((huser username _ _).mpr ⟨userField, hu, rfl⟩),
      Act.bind_of_ok ((hpass password _ _).mpr ⟨passField, hp, rfl⟩)]
    split <;> rfl

end Fields

/-- `fields` are the fields of a CONNECT with the flags byte `f`. -/
structure Layout (self : Connect) (f : UInt8) (fields : List UInt8) : Prop where
  protocol : self.protocol = .v4
  clean : (f &&& 0b10 != 0) = self.cleanSession
  clientId : (asBytes self.clientId).length ≤ 65535
  fields : ∃ willField loginField, WillField f self.lastWill willField ∧
    LoginField f self.login loginField ∧
    fields = lenPrefixed (asBytes "MQTT") ++ (4 :: f :: (toBeBytes self.keepAlive ++
      (lenPrefixed (asBytes self.clientId) ++ (willField ++ loginField))))

/-- A CONNECT is accepted iff its body starts with the fields that the flags
announce.  What follows them is ignored. -/
theorem readExact_eq_ok {fh : FixedHeader} {lenBytes body : List UInt8} (h : fh.OnWire lenBytes)
    {self : Connect} :
    readExact fh (fh.byte1 :: (lenBytes ++ body)) = .ok self ↔
      ∃ f fields ignored, Layout self f fields ∧ body = fields ++ ignored := by
  rw [readExact, readBody_eq_ok h]
  constructor
  · rintro ⟨c, hc⟩
    obtain ⟨name, t₁, hname, hc₁⟩ := Act.bind_eq_ok.mp hc
    obtain ⟨level, t₂, hlevel, hc₂⟩ := Act.bind_eq_ok.mp hc₁
    by_cases hmqtt : name = "MQTT"
    · rw [if_neg (not_not.mpr hmqtt)] at hc₂
      obtain ⟨protocol, t₃, hprotocol, hc₃⟩ := Act.bind_eq_ok.mp hc₂
      have hlevel4 : level = 4 ∧ protocol = .v4 ∧ t₂ = t₃ := by
        by_cases h4 : level = 4
        · subst h4
          cases hprotocol
          exact ⟨rfl, rfl, rfl⟩
        · have h4' : level.toNat = 4 → False := fun h => h4 (UInt8.toNat_inj.mp h)
          simp only [Act.fail_apply, reduceCtorEq, Prod.mk.injEq, false_and] at hprotocol
      obtain ⟨rfl, rfl, rfl⟩ := hlevel4
      obtain ⟨f, t₄, hf, hc₄⟩ := Act.bind_eq_ok.mp hc₃
      obtain ⟨keepAlive, t₅, hkeep, hc₅⟩ := Act.bind_eq_ok.mp hc₄
      obtain ⟨clientId, t₆, hclient, hc₆⟩ := Act.bind_eq_ok.mp hc₅
      obtain ⟨will, t₇, hwill, hc₇⟩ := Act.bind_eq_ok.mp hc₆
      obtain ⟨login, t₈, hlogin, hc₈⟩ := Act.bind_eq_ok.mp hc₇
      obtain ⟨willField, hwillField, rfl⟩ := read_lastWill_eq_ok.mp hwill
      obtain ⟨loginField, hloginField, rfl⟩ := read_login_eq_ok.mp hlogin
      obtain ⟨hshort, rfl⟩ := readMqttString_eq_ok.mp hclient
      obtain rfl := readU16_eq_ok.mp hkeep
      obtain rfl := readU8_eq_ok.mp hf
      obtain rfl := readU8_eq_ok.mp hlevel
      obtain ⟨-, rfl⟩ := readMqttString_eq_ok.mp hname
      cases hc₈
      rw [hmqtt]
      refine ⟨f, _, c, ⟨rfl, rfl, hshort, willField, loginField, hwillField, hloginField, rfl⟩, ?_⟩
      simp only [List.append_assoc, List.cons_append]
    · rw [if_pos hmqtt] at hc₂
      cases hc₂
  · rintro ⟨f, _, ignored,
      ⟨hprotocol, hclean, hclient, willField, loginField, hwill, hlogin, rfl⟩, rfl⟩
    refine ⟨ignored, ?_⟩
    simp only [List.append_assoc, List.cons_append]
    rw [Act.bind_of_ok (readMqttString_append (by decide) _), Act.bind_of_ok (readU8_cons _ _),
      if_neg (by simp), Act.bind_of_ok (f := fun protocol => _) (by rfl),
      Act.bind_of_ok (readU8_cons _ _), Act.bind_of_ok (readU16_append _ _),
      Act.bind_of_ok (readMqttString_append hclient _),
      Act.bind_of_ok (read_lastWill_eq_ok.mpr ⟨willField, hwill, rfl⟩),
      Act.bind_of_ok (read_login_eq_ok.mpr ⟨loginField, hlogin, rfl⟩), hclean]
    simp [← hprotocol]

/-- A CONNECT that the reader can take back from its bytes. -/
structure Readable (connect : Connect) : Prop where
  protocol : connect.protocol = .v4
  clientId : (asBytes connect.clientId).length ≤ 65535
  lastWill : ∀ w ∈ connect.lastWill, w.Short
  login : ∀ l ∈ connect.login, l.Short

theorem FlagsOf.willField {f : UInt8} {c : Bool} {will : Option LastWill} {login : Option Login}
    (h : FlagsOf f c will login) (hw : ∀ w ∈ will, w.Short) :
    WillField f will (will.elim [] LastWill.fields) := by
  cases will with
  | none => exact .inl ⟨h.willFlag.mpr rfl, h.noWill rfl, rfl, rfl⟩
  | some w =>
    exact .inr ⟨by simp [h.willFlag], w, h.willQos w rfl, h.willRetain w rfl, hw w rfl, rfl, rfl⟩

/-- A field that is announced iff it has any byte. -/
theorem Announced.of_nonempty {f bit : UInt8} {bs : List UInt8} (hlen : bs.length ≤ 65535)
    (h : f &&& bit = 0 ↔ bs.isEmpty) :
    Announced f bit bs (if !bs.isEmpty then lenPrefixed bs else []) := by
  by_cases hbs : bs.isEmpty
  · rw [if_neg (by simp [hbs])]
    exact .inl ⟨h.mpr hbs, List.isEmpty_iff.mp hbs, rfl⟩
  · rw [if_pos (by simp [hbs])]
    exact .inr ⟨mt h.mp hbs, hlen, rfl⟩

theorem FlagsOf.loginField {f : UInt8} {c : Bool} {will : Option LastWill}
    {login : Option Login} (h : FlagsOf f c will login) (hl : ∀ l ∈ login, l.Short) :
    LoginField f login (login.elim [] Login.fields) := by
  rcases login with - | ⟨u, p⟩
  · exact ⟨"", [], [], [], .inl ⟨h.username.mpr rfl, rfl, rfl⟩, .inl ⟨h.password.mpr rfl, rfl, rfl⟩,
      rfl, rfl⟩
  · obtain ⟨hu, hp, hne⟩ := hl _ rfl
    refine ⟨u, p, _, _, .of_nonempty hu h.username, .of_nonempty hp h.password, ?_, rfl⟩
    rw [if_neg]
    rw [Bool.and_eq_true, isEmpty_asBytes, List.isEmpty_iff]
    exact hne

theorem readExact_frame {self : Connect} (h : self.Readable) (hlen : self.len ≤ 268435455) :
    readExact (frameHeader 0x10 self.body) (frame 0x10 self.body) = .ok self := by
  have hf := flagsOf_connectFlags self
  refine (readExact_eq_ok (onWire_frameHeader (by rwa [length_body]))).mpr
    ⟨self.connectFlags, self.body, [], ⟨h.protocol, hf.clean, h.clientId, _, _,
      hf.willField h.lastWill, hf.loginField h.login, ?_⟩, (List.append_nil _).symm⟩
  simp [body, afterFlags, h.protocol, level]

theorem errs_lastWill_read (f : UInt8) : Act.Errs Settled (LastWill.read f) := by
  refine .ite (.ite (.fail rfl) (.pure _)) ?_
  exact errs_readMqttString.bind fun topic => errs_readMqttBytes.bind fun message =>
    (Act.Errs.lift (errsIn_qos _)).bind fun q => .pure _

theorem errs_login_read (f : UInt8) : Act.Errs Settled (Login.read f) :=
  (Act.Errs.ite (.pure _) errs_readMqttString).bind fun _ =>
    (Act.Errs.ite (.pure _) errs_readMqttBytes).bind fun _ => .ite (.pure _) (.pure _)

theorem errsIn_readExact {fh : FixedHeader} {lenBytes body : List UInt8}
    (h : fh.OnWire lenBytes) :
    (readExact fh (fh.byte1 :: (lenBytes ++ body))).ErrsIn Settled := by
  refine errsIn_readBody (errs_readMqttString.bind fun name => errs_readU8.bind fun level =>
    .ite (.fail rfl) (.bind ?_ fun protocol => errs_readU8.bind fun flags =>
      errs_readU16.bind fun keepAlive => errs_readMqttString.bind fun clientId =>
      (errs_lastWill_read flags).bind fun will => (errs_login_read flags).bind fun login =>
      .pure _)) h
  split
  · exact .pure _
  · exact .fail rfl

end Connect

end Umqtt
