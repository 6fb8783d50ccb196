/-
Umqtt/InPlace.lean

The two encoders of a PUBLISH agree.

`OutPublish` writes topic and payload where the caller's closures put them, and
the fixed header in front of them.  Whatever the closures do, the bytes it
returns are those that `Publish` writes for the topic and the payload that the
successful adds make up (`OutPublish.writes_publish`).

A closure that asks for its adds in order and passes an error on appends them
all or fails for lack of room.  With such closures the encoder fails for one of
four reasons only: the topic is too long, the packet id is missing, the body is
too long, or there is no room (`OutPublish.write_ok_iff`).
-/
import Umqtt.Packetview.OutPublish

namespace Umqtt

open Effects Wire

/-! ### The PUBLISH that closures write -/

/-- The strings of the adds that returned `Ok`, one behind the other. -/
def addedString : List ((q : TopicQuery) × Except WriteError q.Answer) → String
  | [] => ""
  | ⟨.addStr string, .ok _⟩ :: asked => string ++ addedString asked
  | _ :: asked => addedString asked

theorem asBytes_addedString (asked : List ((q : TopicQuery) × Except WriteError q.Answer)) :
    asBytes (addedString asked) = added TopicQuery.bytes asked := by
  induction asked with
  | nil => rfl
  | cons query asked ih =>
    rw [added, List.flatMap_cons, ← added, ← ih]
    obtain ⟨q, a⟩ := query
    cases q with
    | addStr string =>
      cases a with
      | error e => rfl
      | ok a => exact asBytes_append string (addedString asked)
    | len | capacity => cases a <;> rfl

namespace OutPublish

/-- The PUBLISH with the same flags, whose topic and payload are what the
closures add to the output buffer `buf`. -/
def publish (self : OutPublish) (topic : TopicFn) (payload : PayloadFn) (buf : List UInt8) :
    Publish where
  dup := self.dup
  qos := self.qos
  retain := self.retain
  topic := addedString
    (topic.asked TopicWriter.answer ((Filled.empty (buf.drop 5)).extend [0, 0]))
  pkid := self.pkid
  payload := self.payloadBytes topic payload (Filled.empty (buf.drop 5))

theorem body_publish (self : OutPublish) (topic : TopicFn) (payload : PayloadFn)
    (buf : List UInt8) :
    (self.publish topic payload buf).body =
      self.body topic payload (Filled.empty (buf.drop 5)) := by
  show lenPrefixed (asBytes (addedString _)) ++ _ = _
  rw [asBytes_addedString]
  rfl

/-- A packet id that is missing is refused, behind the topic. -/
theorem writeVarHeaderAndPayload_of_pkid {self : OutPublish} (hq : self.qos ≠ .atMostOnce)
    (h0 : self.pkid = 0) (topic : TopicFn) (payload : PayloadFn) :
    Refuses (self.writeVarHeaderAndPayload topic payload) := by
  intro w
  rcases writeTopic_cases topic w with ⟨-, ht⟩ | ⟨e, w', ht, hc⟩
  · refine ⟨.malformedPacket, w.extend (lenPrefixed (topicBytes topic w)), ?_,
      Filled.capacity_extend _ _⟩
    rw [writeVarHeaderAndPayload, Act.bind_of_ok ht, if_pos hq, if_pos h0]
    rfl
  · exact ⟨e, w', Act.bind_of_err ht, hc⟩

theorem pkid_of_ok {self : OutPublish} {topic : TopicFn} {payload : PayloadFn}
    {buf : List UInt8} {bytes : List UInt8} (h5 : 5 ≤ buf.length)
    (h : (self.write topic payload buf).1 = .ok bytes) :
    self.qos ≠ .atMostOnce → self.pkid ≠ 0 := by
  intro hq h0
  obtain ⟨e, w, hw, hc⟩ := writeVarHeaderAndPayload_of_pkid hq h0 topic payload
    (Filled.empty (buf.drop 5))
  obtain ⟨buf', hbuf, -⟩ := self.write_of_err h5 hw hc
  rw [hbuf] at h
  cases h

/-- The bytes that the encoder returns are those of this PUBLISH. -/
theorem writes_publish {self : OutPublish} {topic : TopicFn} {payload : PayloadFn}
    {buf bytes : List UInt8} (h5 : 5 ≤ buf.length)
    (h : (self.write topic payload buf).1 = .ok bytes) :
    Writes WriteError.notEnoughCapacity (self.publish topic payload buf).write bytes := by
  have hpkid : (self.publish topic payload buf).qos ≠ .atMostOnce →
      (self.publish topic payload buf).pkid ≠ 0 := pkid_of_ok h5 h
  have hbody := self.body_publish topic payload buf
  rcases self.write_cases topic payload h5 with ⟨hbig, -, buf', hw, -⟩ | ⟨e, buf', hw, -⟩
  · rw [hw] at h
    cases h
    rw [← hbody] at hbig ⊢
    exact Publish.writes hpkid ((Publish.length_body hpkid).symm.trans_le hbig)
  · rw [hw] at h
    cases h

/-! ### Closures that pass errors on -/

theorem emits_topic (adds : List TopicQuery) :
    Emits WriteError.notEnoughCapacity ((Dialogue.all adds : TopicFn).run TopicWriter.answer)
      (adds.flatMap TopicQuery.bytes) () := by
  refine Emits.all (fun q w => ?_) adds
  cases q with
  | addStr string =>
    obtain ⟨hfit, hfull⟩ := emits_addSlice (asBytes string) w
    exact ⟨fun hle => ⟨(), hfit hle⟩, hfull⟩
  | len => exact ⟨fun _ => atomic_gets _ w, fun h => absurd h (Nat.not_lt_zero _)⟩
  | capacity => exact ⟨fun _ => atomic_gets _ w, fun h => absurd h (Nat.not_lt_zero _)⟩

theorem emits_payload (adds : List PayloadQuery) :
    Emits WriteError.notEnoughCapacity ((Dialogue.all adds : PayloadFn).run PayloadWriter.answer)
      (adds.flatMap PayloadQuery.bytes) () := by
  have hadd : ∀ (bs : List UInt8) (w : BorrowedBuf),
      (bs.length ≤ w.room → ∃ a, BorrowedBuf.addSlice bs w = (.ok a, w.extend bs)) ∧
        (w.room < bs.length → ∃ w', BorrowedBuf.addSlice bs w = (.err .notEnoughCapacity, w') ∧
          w'.capacity = w.capacity) := fun bs w =>
    ⟨fun hle => ⟨(), (emits_addSlice bs w).1 hle⟩, (emits_addSlice bs w).2⟩
  refine Emits.all (fun q w => ?_) adds
  cases q with
  | addU8 byte => exact hadd [byte] w
  | addSlice slice => exact hadd slice w
  | addStr string => exact hadd (asBytes string) w
  | len => exact ⟨fun _ => atomic_gets _ w, fun h => absurd h (Nat.not_lt_zero _)⟩
  | capacity => exact ⟨fun _ => atomic_gets _ w, fun h => absurd h (Nat.not_lt_zero _)⟩

section PassErrorsOn

variable {self : OutPublish} {topic : TopicFn} {payload : PayloadFn} {t d : List UInt8}

/-- The topic writer, over a closure that appends `t` or runs out of room: the
length of `t` is looked at only when all of it is there. -/
theorem writeTopic_of_emits
    (h : Emits WriteError.notEnoughCapacity (topic.run TopicWriter.answer) t ())
    (w : BorrowedBuf) :
    (2 + t.length ≤ w.room → writeTopic topic w =
      if t.length > 65535 then (.err .payloadTooLong, w.extend ([0, 0] ++ t))
      else (.ok (), w.extend (lenPrefixed t))) ∧
    (w.room < 2 + t.length →
      ∃ w', writeTopic topic w = (.err .notEnoughCapacity, w') ∧ w'.capacity = w.capacity) := by
  by_cases h2 : 2 ≤ w.room
  · have hle : ([0, 0] : List UInt8).length ≤ w.room := h2
    have hlen : ([0, 0] : List UInt8).length = 2 := rfl
    obtain ⟨hfit, hfull⟩ := h (w.extend [0, 0])
    rw [Filled.room_extend hle, hlen] at hfit hfull
    refine ⟨fun hroom => ?_, fun hroom => ?_⟩
    · have hboth : ([0, 0] : List UInt8).length + t.length ≤ w.room := hroom
      have hrun := hfit (by omega)
      rw [Filled.extend_extend hboth] at hrun
      exact writeTopic_of_ok hroom hrun
    · obtain ⟨w', hrun, hc⟩ := hfull (by omega)
      exact ⟨w', writeTopic_of_err h2 hrun, hc.trans (Filled.capacity_extend _ _)⟩
  · exact ⟨fun hroom => by omega, fun _ => ⟨w, writeTopic_of_lt (by omega), rfl⟩⟩

theorem emits_writeTopic
    (h : Emits WriteError.notEnoughCapacity (topic.run TopicWriter.answer) t ())
    (ht : t.length ≤ 65535) :
    Emits WriteError.notEnoughCapacity (writeTopic topic) (lenPrefixed t) () := by
  intro w
  obtain ⟨hfit, hfull⟩ := writeTopic_of_emits h w
  rw [if_neg (by omega)] at hfit
  rw [length_lenPrefixed]
  exact ⟨hfit, hfull⟩

theorem refuses_writeTopic
    (h : Emits WriteError.notEnoughCapacity (topic.run TopicWriter.answer) t ())
    (ht : 65535 < t.length) : Refuses (writeTopic topic) := by
  intro w
  obtain ⟨hfit, hfull⟩ := writeTopic_of_emits h w
  rw [if_pos ht] at hfit
  by_cases hroom : 2 + t.length ≤ w.room
  · exact ⟨_, _, hfit hroom, Filled.capacity_extend _ _⟩
  · obtain ⟨w', hw', hc⟩ := hfull (by omega)
    exact ⟨_, w', hw', hc⟩

/-- The body of a PUBLISH with the topic `t` and the payload `d`. -/
def bodyOf (self : OutPublish) (t d : List UInt8) : List UInt8 :=
  lenPrefixed t ++ (Publish.pkidField self.qos self.pkid ++ d)

theorem fills_writeVarHeaderAndPayload
    (ht : Emits WriteError.notEnoughCapacity (topic.run TopicWriter.answer) t ())
    (hd : Emits WriteError.notEnoughCapacity (payload.run PayloadWriter.answer) d ())
    (hlen : t.length ≤ 65535) (hpkid : self.qos ≠ .atMostOnce → self.pkid ≠ 0) :
    Fills WriteError.notEnoughCapacity (self.writeVarHeaderAndPayload topic payload)
      (self.bodyOf t d) := by
  refine (emits_writeTopic ht hlen).bindFills (Emits.bindFills (a := ()) ?_
    ((hd.bindFills fills_len).congr (List.append_nil _)))
  rw [Publish.pkidField]
  by_cases hq : self.qos = .atMostOnce
  · rw [if_neg (not_not.mpr hq), if_pos hq]
    exact .pure
  · rw [if_pos hq, if_neg (hpkid hq), if_neg hq]
    exact emits_addSlice _

theorem write_of_fills {buf body : List UInt8} (h5 : 5 ≤ buf.length)
    (h : Fills WriteError.notEnoughCapacity (self.writeVarHeaderAndPayload topic payload) body) :
    (self.write topic payload buf).1 =
      if 5 + body.length ≤ buf.length then
        if body.length ≤ 268435455 then
          .ok (frame (Publish.byte1 self.dup self.qos self.retain) body)
        else .err .payloadTooLong
      else .err .notEnoughCapacity := by
  obtain ⟨hfit, hfull⟩ := h (Filled.empty (buf.drop 5))
  have hroom : (Filled.empty (buf.drop 5)).room = buf.length - 5 := List.length_drop
  by_cases hle : 5 + body.length ≤ buf.length
  · have hrun := hfit (by omega)
    change _ = (Outcome.ok (0 + body.length), _) at hrun
    rw [Nat.zero_add] at hrun
    obtain ⟨buf', hbuf, -⟩ := self.write_of_ok hle hrun
    rw [hbuf, if_pos hle]
  · obtain ⟨w', hrun, hc⟩ := hfull (by omega)
    obtain ⟨buf', hbuf, -⟩ := self.write_of_err h5 hrun hc
    rw [hbuf, if_neg hle]

/-- A topic, a packet id and a body that a PUBLISH can have. -/
structure Encodable (out : OutPublish) (t d : List UInt8) : Prop where
  topic : t.length ≤ 65535
  pkid : out.qos ≠ .atMostOnce → out.pkid ≠ 0
  body : (out.bodyOf t d).length ≤ 268435455

/-- The encoder returns bytes iff the PUBLISH can be encoded and has room. -/
theorem write_ok_iff {buf : List UInt8} (h5 : 5 ≤ buf.length)
    (ht : Emits WriteError.notEnoughCapacity (topic.run TopicWriter.answer) t ())
    (hd : Emits WriteError.notEnoughCapacity (payload.run PayloadWriter.answer) d ()) :
    (∃ bytes, (self.write topic payload buf).1 = .ok bytes) ↔
      self.Encodable t d ∧ 5 + (self.bodyOf t d).length ≤ buf.length := by
  constructor
  · rintro ⟨bytes, h⟩
    have hpkid := pkid_of_ok h5 h
    by_cases hlen : t.length ≤ 65535
    · rw [write_of_fills h5 (fills_writeVarHeaderAndPayload ht hd hlen hpkid)] at h
      by_cases hle : 5 + (self.bodyOf t d).length ≤ buf.length
      · rw [if_pos hle] at h
        by_cases hbig : (self.bodyOf t d).length ≤ 268435455
        · exact ⟨⟨hlen, hpkid, hbig⟩, hle⟩
        · rw [if_neg hbig] at h
          cases h
      · rw [if_neg hle] at h
        cases h
    · have hrefuses : Refuses (self.writeVarHeaderAndPayload topic payload) :=
        (refuses_writeTopic ht (Nat.lt_of_not_le hlen)).bind
      obtain ⟨e, w, hw, hc⟩ := hrefuses (Filled.empty (buf.drop 5))
      obtain ⟨buf', hbuf, -⟩ := self.write_of_err h5 hw hc
      rw [hbuf] at h
      cases h
  · rintro ⟨henc, hle⟩
    rw [write_of_fills h5 (fills_writeVarHeaderAndPayload ht hd henc.topic henc.pkid),
      if_pos hle, if_pos henc.body]
    exact ⟨_, rfl⟩

end PassErrorsOn

/-- Whatever the closures do, and whether or not they go on behind an add that
failed, the bytes that the encoder returns are those of the PUBLISH with the
topic and the payload that the successful adds make up.  Closures that make
their adds in order and pass the first error on get bytes iff the PUBLISH can be
encoded and there is room for it behind five bytes. -/
theorem in_place (self : OutPublish) :
    (∀ (topic : TopicFn) (payload : PayloadFn) (buf bytes : List UInt8), 5 ≤ buf.length →
      (self.write topic payload buf).1 = .ok bytes →
      Writes WriteError.notEnoughCapacity (self.publish topic payload buf).write bytes) ∧
    ∀ (topic : List TopicQuery) (payload : List PayloadQuery) (buf : List UInt8),
      5 ≤ buf.length →
      ((∃ bytes, (self.write (.all topic) (.all payload) buf).1 = .ok bytes) ↔
        self.Encodable (topic.flatMap TopicQuery.bytes) (payload.flatMap PayloadQuery.bytes) ∧
          5 + (self.bodyOf (topic.flatMap TopicQuery.bytes)
            (payload.flatMap PayloadQuery.bytes)).length ≤ buf.length) :=
  ⟨fun _ _ _ _ h5 h => writes_publish h5 h,
    fun topic payload _ h5 => write_ok_iff h5 (emits_topic topic) (emits_payload payload)⟩

/-- The payload goes on behind an add that has no room. -/
theorem in_place_hello :
    let out : OutPublish := ⟨false, .atMostOnce, false, 0⟩
    let topic : TopicFn := .all [.addStr "hello"]
    let payload : PayloadFn :=
      .ask (.addStr "world") fun _ => .ask (.addU8 1) fun _ => .done (.ok ())
    Writes WriteError.notEnoughCapacity (out.publish topic payload (List.replicate 13 0)).write
      [0x30, 8, 0, 5, 104, 101, 108, 108, 111, 1] :=
  (in_place ⟨false, .atMostOnce, false, 0⟩).1 _ _ (List.replicate 13 0) _ (by decide)
    (by decide +kernel)

end OutPublish

end Umqtt
