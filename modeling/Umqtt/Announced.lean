/-
Umqtt/Announced.lean

The length that a packet announces, and the bytes that it emits.

`len` and the loop that writes a body are separate computations.  They agree for
every kind but one: a SUBACK on bytes that nobody has checked announces all of
them, and writes those before the first that is no code (`announced_length`).

What is emitted does not depend on the buffer, if it is long enough: every
writer puts the same bytes in front, or fails on all buffers
(`exists_announces`), so that its result is a function of the length of the
buffer (`write_by_length`).
-/
import Mathlib.Data.List.TakeWhile
import Umqtt.FieldLengths

namespace Umqtt

open Effects Wire

namespace Packet

/-! ### What a writer emits -/

/-- The writer of `p` announces `len` bytes, and then emits `body`. -/
structure Announces (p : Packet) (byte1 : UInt8) (len : Nat) (body : List UInt8) : Prop where
  le : len ≤ 268435455
  writes : Writes WriteError.notEnoughCapacity p.write (byte1 :: (base128 len ++ body))

/-- The writer of `p` emits the frame of a body, or fails on every buffer. -/
def Whole (p : Packet) : Prop :=
  (∃ byte1 body, p.Announces byte1 body.length body) ∨ ∀ buf, ∃ e, (p.write buf).1 = .err e

theorem Framing.whole {p : Packet} {len : Nat} (h : p.Framing len) : p.Whole := by
  by_cases hok : p.Numbered ∧ len ≤ 268435455
  · obtain ⟨byte1, body, hw, hbody, -⟩ := h.frames hok.1 hok.2
    exact .inl ⟨byte1, body, hbody.trans_le hok.2, hw⟩
  · exact .inr (h.refuses hok)

theorem whole_of_writes {p : Packet} {byte1 : UInt8} {body : List UInt8}
    (h : body.length ≤ 268435455)
    (hw : Writes WriteError.notEnoughCapacity p.write (frame byte1 body)) : p.Whole :=
  .inl ⟨byte1, body, h, hw⟩

/-- Every kind but SUBACK emits what it announces. -/
theorem whole (p : Packet) (h : ∀ s, p ≠ subAck s) : p.Whole := by
  cases p with
  | connect p => exact (framing_connect p).whole
  | connAck p => exact whole_of_writes (by simp [ConnAck.body]) (ConnAck.writes p)
  | publish p => exact (framing_publish p).whole
  | pubAck p => exact whole_of_writes (by simp) (writes_writeAck 0x40 p.pkid)
  | pubRec p => exact whole_of_writes (by simp) (writes_writeAck 0x50 p.pkid)
  | pubRel p => exact whole_of_writes (by simp) (writes_writeAck 0x62 p.pkid)
  | pubComp p => exact whole_of_writes (by simp) (writes_writeAck 0x70 p.pkid)
  | subscribe p =>
    obtain ⟨len, hlen⟩ := framing_subscribe p
    exact hlen.whole
  | subAck p => exact absurd rfl (h p)
  | unsubscribe p =>
    obtain ⟨len, hlen⟩ := framing_unsubscribe p
    exact hlen.whole
  | unsubAck p => exact whole_of_writes (by simp) (writes_unsubAck p)
  | pingReq => exact whole_of_writes (by simp) (writes_writeEmpty 0xC0)
  | pingResp => exact whole_of_writes (by simp) (writes_writeEmpty 0xD0)
  | disconnect => exact whole_of_writes (by simp) (writes_writeEmpty 0xE0)

theorem announces_subAck {s : SubAck} (h : s.len ≤ 268435455) :
    (subAck s).Announces 0x90 s.len (toBeBytes s.pkid ++ SubAck.yielded s.returnCodes) :=
  ⟨h, SubAck.writes_yielded h⟩

/-- Every writer emits some bytes, or fails on every buffer. -/
theorem exists_announces (p : Packet) :
    (∃ byte1 len body, p.Announces byte1 len body) ∨ ∀ buf, ∃ e, (p.write buf).1 = .err e := by
  by_cases h : ∀ s, p ≠ subAck s
  · rcases p.whole h with ⟨byte1, body, ha⟩ | hno
    · exact .inl ⟨byte1, _, body, ha⟩
    · exact .inr hno
  · push Not at h
    obtain ⟨s, rfl⟩ := h
    by_cases hlen : s.len ≤ 268435455
    · exact .inl ⟨_, _, _, announces_subAck hlen⟩
    · refine .inr fun buf => ?_
      obtain ⟨e, buf', hbuf, -⟩ := SubAck.refuses (Nat.lt_of_not_le hlen) buf
      exact ⟨e, congrArg Prod.fst hbuf⟩

/-! ### The announced length -/

/-- If `p` is written into `buf`, what is written is a frame of the length that
was returned. -/
def Truthful (p : Packet) (buf : List UInt8) : Prop :=
  ∀ n, (p.write buf).1 = .ok n → ∃ fh, check ((p.write buf).2.take n) n = .ok fh ∧
    (fh.frameLength : Outcome Error Nat) = .ok n

/-- Bytes behind an announced length are a frame iff it is their number. -/
theorem check_announced {byte1 : UInt8} {len : Nat} {body : List UInt8} (h : len ≤ 268435455) :
    (∃ fh, check (byte1 :: (base128 len ++ body)) (byte1 :: (base128 len ++ body)).length = .ok fh ∧
      (fh.frameLength : Outcome Error Nat) =
        .ok (byte1 :: (base128 len ++ body)).length) ↔ len = body.length := by
  have hw := @onWire_base128 byte1 len h
  have hcheck := @check_of_onWire _ _ body (byte1 :: (base128 len ++ body)).length hw
  have hlen : (byte1 :: (base128 len ++ body)).length =
      (base128 len).length + 1 + body.length := by
    rw [List.length_cons, List.length_append]
    omega
  have hframe := @FixedHeader.OnWire.frameLength_eq Error _ _ hw
  dsimp only at hcheck hframe
  rw [hcheck, hlen]
  constructor
  · rintro ⟨fh, hfh, hn⟩
    split at hfh
    · cases hfh
    · split at hfh
      · cases hfh
      · cases hfh
        have heq := Outcome.ok.inj (hframe.symm.trans hn)
        omega
  · intro heq
    rw [if_neg (by omega), if_neg (by omega)]
    exact ⟨_, rfl, by rw [hframe, heq]⟩

theorem Announces.truthful_iff {p : Packet} {byte1 : UInt8} {len : Nat} {body : List UInt8}
    (h : p.Announces byte1 len body) (buf : List UInt8) :
    p.Truthful buf ↔
      len = body.length ∨ buf.length < (byte1 :: (base128 len ++ body)).length := by
  rw [← check_announced h.le]
  constructor
  · intro ht
    by_cases hle : (byte1 :: (base128 len ++ body)).length ≤ buf.length
    · obtain ⟨n, hn⟩ := (h.writes.ok_iff buf).mpr hle
      obtain ⟨rfl, -, htake⟩ := h.writes.of_ok hn
      have hfh := ht _ hn
      rw [htake] at hfh
      exact .inl hfh
    · exact .inr (Nat.lt_of_not_le hle)
  · intro hor n hn
    obtain ⟨rfl, hle, htake⟩ := h.writes.of_ok hn
    rw [htake]
    rcases hor with hfh | hlt
    · exact hfh
    · exact absurd hlt (Nat.not_lt.mpr hle)

theorem truthful_of_err {p : Packet} {buf : List UInt8} (h : ∃ e, (p.write buf).1 = .err e) :
    p.Truthful buf := by
  intro n hn
  obtain ⟨e, he⟩ := h
  cases he.symm.trans hn

/-- The bytes that a SUBACK was built on are codes, or it cannot be written into
`room` bytes. -/
def Coded (room : Nat) : Packet → Prop
  | subAck ⟨_, .wireBytes b⟩ => (∀ x ∈ b, SubscribeReasonCode.IsCode x) ∨
      268435455 < 2 + b.length ∨ room < 1 + (base128 (2 + b.length)).length +
        (2 + (b.takeWhile (SubscribeReasonCode.IsCode ·)).length)
  | _ => True

theorem truthful_subAck (s : SubAck) (buf : List UInt8) :
    (subAck s).Truthful buf ↔ s.len = 2 + (SubAck.yielded s.returnCodes).length ∨
      268435455 < s.len ∨ buf.length < 1 + (base128 s.len).length +
        (2 + (SubAck.yielded s.returnCodes).length) := by
  have hbody : (toBeBytes s.pkid ++ SubAck.yielded s.returnCodes).length =
      2 + (SubAck.yielded s.returnCodes).length := by
    rw [List.length_append, length_toBeBytes]
  by_cases hlen : s.len ≤ 268435455
  · have hframe : (0x90 :: (base128 s.len ++ (toBeBytes s.pkid ++
        SubAck.yielded s.returnCodes))).length =
          1 + (base128 s.len).length + (2 + (SubAck.yielded s.returnCodes).length) := by
      rw [List.length_cons, List.length_append, hbody]
      omega
    refine ((announces_subAck hlen).truthful_iff buf).trans ?_
    rw [hbody, hframe, or_iff_right (Nat.not_lt.mpr hlen)]
  · obtain ⟨e, buf', hbuf, -⟩ := SubAck.refuses (Nat.lt_of_not_le hlen) buf
    refine iff_of_true (truthful_of_err ⟨e, congrArg Prod.fst hbuf⟩) ?_
    exact .inr (.inl (Nat.lt_of_not_le hlen))

/-- What is written is a frame of the length that was returned, unless it is a
SUBACK on bytes of which one is no code. -/
theorem announced_length (p : Packet) (buf : List UInt8) :
    p.Truthful buf ↔ p.Coded buf.length := by
  by_cases h : ∀ s, p ≠ subAck s
  · have hcoded : p.Coded buf.length := by
      cases p with
      | subAck s => exact absurd rfl (h s)
      | _ => trivial
    refine iff_of_true ?_ hcoded
    rcases p.whole h with ⟨byte1, body, ha⟩ | hno
    · exact (ha.truthful_iff buf).mpr (.inl rfl)
    · exact truthful_of_err (hno buf)
  · push Not at h
    obtain ⟨⟨pkid, codes | b⟩, rfl⟩ := h
    · refine iff_of_true ((truthful_subAck _ buf).mpr (.inl ?_)) trivial
      rw [SubAck.len, SubAck.storageLen, SubAck.yielded, List.length_map]
    · have hall : b.length = (b.takeWhile (SubscribeReasonCode.IsCode ·)).length ↔
          ∀ x ∈ b, SubscribeReasonCode.IsCode x := by
        have hself := @List.takeWhile_eq_self_iff _ (SubscribeReasonCode.IsCode ·) b
        simp only [decide_eq_true_eq] at hself
        rw [← hself]
        exact ⟨fun heq => (List.takeWhile_prefix _).eq_of_length heq.symm,
          fun heq => congrArg List.length heq.symm⟩
      refine (truthful_subAck _ buf).trans ?_
      rw [SubAck.len, SubAck.storageLen, SubAck.yielded, Nat.add_left_cancel_iff, hall]
      rfl

/-- A SUBACK on the bytes 0 and 3: the second is announced and not written. -/
theorem announced_length_three :
    ¬(subAck ⟨1, .wireBytes [0, 3]⟩).Truthful (List.replicate 8 0) ∧
      (subAck ⟨1, .wireBytes [0, 3]⟩).write (List.replicate 8 0) =
        (.ok 5, [0x90, 4, 0, 1, 0, 0, 0, 0]) := by
  have hwrite : (subAck ⟨1, .wireBytes [0, 3]⟩).write (List.replicate 8 0) =
      (.ok 5, [0x90, 4, 0, 1, 0, 0, 0, 0]) := by decide +kernel
  refine ⟨fun h => ?_, hwrite⟩
  obtain ⟨fh, hfh, -⟩ := h 5 (congrArg Prod.fst hwrite)
  rw [hwrite] at hfh
  cases hfh

/-! ### The same bytes into every buffer -/

/-- A packet that can be written into some buffer is written alike into every
buffer that has room for these bytes, and leaves what is behind them; for every
other, and an empty one is among them, there is not enough capacity. -/
theorem write_by_length {p : Packet} {buf : List UInt8} {n : Nat} (h : (p.write buf).1 = .ok n)
    (buf' : List UInt8) :
    0 < n ∧
    (n ≤ buf'.length → (p.write buf').1 = .ok n ∧
      (p.write buf').2.take n = (p.write buf).2.take n ∧
      (p.write buf').2.drop n = buf'.drop n) ∧
    (buf'.length < n → (p.write buf').1 = .err .notEnoughCapacity) := by
  rcases p.exists_announces with ⟨byte1, len, body, ha⟩ | hno
  · obtain ⟨rfl, -, htake⟩ := ha.writes.of_ok h
    obtain ⟨hfit, hfull⟩ := ha.writes buf'
    rw [htake]
    have hpos : 0 < (byte1 :: (base128 len ++ body)).length := Nat.succ_pos _
    generalize byte1 :: (base128 len ++ body) = bs at hfit hfull hpos ⊢
    refine ⟨hpos, ?_, ?_⟩
    · intro hle
      have hdrop := @drop_overwrite _ buf' 0 bs (by omega)
      have htake' := @take_overwrite _ buf' 0 bs (by omega)
      rw [Nat.zero_add] at hdrop htake'
      rw [hfit hle]
      exact ⟨rfl, htake', hdrop⟩
    · intro hlt
      obtain ⟨b, hb, -⟩ := hfull hlt
      rw [hb]
  · obtain ⟨e, he⟩ := hno buf
    cases he.symm.trans h

/-- A PUBACK goes into five bytes as it goes into four, and not into three. -/
theorem write_by_length_pubAck :
    ((pubAck ⟨7⟩).write [9, 9, 9, 9, 9]).2 = [0x40, 2, 0, 7, 9] ∧
      ((pubAck ⟨7⟩).write [9, 9, 9]).1 = .err .notEnoughCapacity := by
  have h : ((pubAck ⟨7⟩).write [0, 0, 0, 0]).1 = .ok 4 := by decide +kernel
  obtain ⟨-, htake, hdrop⟩ := (write_by_length h [9, 9, 9, 9, 9]).2.1 (by decide)
  refine ⟨?_, (write_by_length h [9, 9, 9]).2.2 (by decide)⟩
  rw [← List.take_append_drop 4 ((pubAck ⟨7⟩).write [9, 9, 9, 9, 9]).2, htake, hdrop]
  decide +kernel

end Packet

/-! ### The flags of a CONNECT -/

namespace ConnectOptions

/-- All fields fit behind a 16-bit length. -/
structure Short (options : ConnectOptions) : Prop where
  clientId : (asBytes options.clientId).length ≤ 65535
  lastWill : ∀ w ∈ options.lastWill, w.Short
  login : ∀ l ∈ options.login, (asBytes l.username).length ≤ 65535 ∧ l.password.length ≤ 65535

/-- The flags byte `f` describes these options, and announces the fields that
stand behind the client id: those of the will, the user name and the password. -/
structure Described (options : ConnectOptions) (f : UInt8)
    (willField userField passField : List UInt8) : Prop where
  reserved : f &&& 0b0000_0001 = 0
  clean : (f &&& 0b0000_0010 != 0) = options.cleanSession
  noWill : f &&& 0b0000_0100 = 0 → f &&& 0b0011_1000 = 0
  willQos : f &&& 0b0001_1000 ≠ 0b0001_1000
  will : Connect.WillField f options.lastWill willField
  username : Connect.Announced f 0b1000_0000 (options.login.elim [] fun l => asBytes l.username)
    userField
  password : Connect.Announced f 0b0100_0000 (options.login.elim [] Login.password) passField
  hasUsername : f &&& 0b1000_0000 ≠ 0 ↔ (options.login.elim [] fun l => asBytes l.username) ≠ []
  hasPassword : f &&& 0b0100_0000 ≠ 0 ↔ options.login.elim [] Login.password ≠ []

theorem described_connectFlags {self : ConnectOptions} (h : self.Short) :
    ∃ willField userField passField,
      self.Described self.asConnect.connectFlags willField userField passField ∧
      self.asConnect.body = lenPrefixed (asBytes "MQTT") ++ (4 :: self.asConnect.connectFlags ::
        (toBeBytes self.keepAlive ++ (lenPrefixed (asBytes self.clientId) ++
          (willField ++ (userField ++ passField))))) := by
  have hf := self.asConnect.flagsOf_connectFlags
  obtain ⟨hreserved, hqos⟩ := self.asConnect.connectFlags_reserved
  have hnoWill := fun h0 => hf.noWill (hf.willFlag.mp h0)
  have hwill := hf.willField h.lastWill
  have hlogin := h.login
  obtain ⟨clientId, lastWill, login, keepAlive, cleanSession⟩ := self
  rcases login with - | ⟨u, p⟩
  · have huser := hf.username.mpr rfl
    have hpass := hf.password.mpr rfl
    refine ⟨_, [], [], ⟨hreserved, hf.clean, hnoWill, hqos, hwill, .inl ⟨huser, rfl, rfl⟩,
      .inl ⟨hpass, rfl, rfl⟩, iff_of_false (not_not.mpr huser) (not_not.mpr rfl),
      iff_of_false (not_not.mpr hpass) (not_not.mpr rfl)⟩, ?_⟩
    simp [Connect.body, Connect.afterFlags, asConnect, Connect.level]
  · obtain ⟨hu, hp⟩ := hlogin _ rfl
    refine ⟨_, _, _, ⟨hreserved, hf.clean, hnoWill, hqos, hwill, .of_nonempty hu hf.username,
      .of_nonempty hp hf.password, not_congr (hf.username.trans List.isEmpty_iff),
      not_congr (hf.password.trans List.isEmpty_iff)⟩, ?_⟩
    simp [Connect.body, Connect.afterFlags, asConnect, Connect.level, Login.fields]

/-- What the encoder writes for options whose fields are not too long: the flags
describe the options and announce the fields behind the client id, and nothing
follows these. -/
theorem connect_described {self : ConnectOptions} {buf : List UInt8} {n : Nat} (h : self.Short)
    (hn : (self.asConnect.write buf).1 = .ok n) :
    ∃ f willField userField passField, self.Described f willField userField passField ∧
      (self.asConnect.write buf).2.take n = frame 0x10 (lenPrefixed (asBytes "MQTT") ++
        (4 :: f :: (toBeBytes self.keepAlive ++ (lenPrefixed (asBytes self.clientId) ++
          (willField ++ (userField ++ passField)))))) := by
  obtain ⟨willField, userField, passField, hdescribed, hbody⟩ := described_connectFlags h
  refine ⟨_, willField, userField, passField, hdescribed, ?_⟩
  by_cases hfits : self.asConnect.Fits buf.length
  · rw [← hbody]
    exact ((Connect.writes hfits.1).of_ok hn).2.2
  · obtain ⟨e, buf', hbuf, -⟩ := Connect.write_of_not_fits hfits
    rw [hbuf] at hn
    cases hn

/-- A client id, and a password without a user name. -/
theorem connect_described_password :
    let options : ConnectOptions := ⟨"c", none, some ⟨"", [1]⟩, 0, true⟩
    ∃ f willField userField passField, options.Described f willField userField passField ∧
      [0x10, 16, 0, 4, 77, 81, 84, 84, 4, 0x42, 0, 0, 0, 1, 99, 0, 1, 1] =
        frame 0x10 (lenPrefixed (asBytes "MQTT") ++ (4 :: f :: (toBeBytes 0 ++
          (lenPrefixed (asBytes "c") ++ (willField ++ (userField ++ passField)))))) := by
  intro options
  have hshort : options.Short := by
    refine ⟨by decide, nofun, ?_⟩
    rintro l ⟨⟩
    exact ⟨by decide, by decide⟩
  have hwrite : options.asConnect.write (List.replicate 18 0) =
      (.ok 18, [0x10, 16, 0, 4, 77, 81, 84, 84, 4, 0x42, 0, 0, 0, 1, 99, 0, 1, 1]) := by
    decide +kernel
  have h := connect_described hshort (congrArg Prod.fst hwrite)
  rw [hwrite] at h
  exact h

/-- There the password flag is set and the user name flag is not. -/
theorem connect_password_flag :
    ¬∀ (options : ConnectOptions) (buf : List UInt8) (n : Nat) (f : UInt8) (rest : List UInt8),
      options.Short → (options.asConnect.write buf).1 = .ok n →
      (options.asConnect.write buf).2.take n =
        frame 0x10 (lenPrefixed (asBytes "MQTT") ++ (4 :: f :: rest)) →
      f &&& 0b0100_0000 ≠ 0 → f &&& 0b1000_0000 ≠ 0 := by
  intro h
  have hshort : ConnectOptions.Short ⟨"c", none, some ⟨"", [1]⟩, 0, true⟩ := by
    refine ⟨by decide, nofun, ?_⟩
    rintro l ⟨⟩
    exact ⟨by decide, by decide⟩
  exact absurd (h _ (List.replicate 18 0) 18 0x42 [0, 0, 0, 1, 99, 0, 1, 1] hshort
    (by decide +kernel) (by decide +kernel) (by decide)) (by decide)

end ConnectOptions

end Umqtt
