/-
Umqtt/StaleBytes.lean

What a buffer held before an encoder used it does not show.

Every encoder of the client is built from primitives that write before they
count: also the flags of a CONNECT and the lengths in a PUBLISH or a SUBSCRIBE,
which are filled in later, are counted once they are in place.  So the encoders
agree on buffers of one size, with whatever is in them (`Connect.blind_write`,
`OutPublish.agrees_write`, `SubscribeWriter.blind_payload`), and the closures of
the user, who may look at lengths and capacities but not at bytes, agree with
themselves.  In the PUBLISH encoder the fixed header goes right in front of the
body, and the bytes that it does not need are in front of the packet.
-/
import Umqtt.Lib.Agreement
import Umqtt.Packetview.Connect
import Umqtt.Packetview.SubscribeWriter

namespace Umqtt

open Effects Wire

/-! ### Primitives -/

theorem BorrowedBuf.agrees_addSlice (data : List UInt8) :
    Act.Agrees Filled.Alike (addSlice data) (addSlice data) := by
  intro b b' h
  by_cases hle : data.length ≤ b.room
  · rw [addSlice_of_le hle, addSlice_of_le (h.room ▸ hle)]
    exact ⟨rfl, h.extend data⟩
  · rw [addSlice_of_lt (Nat.lt_of_not_le hle), addSlice_of_lt (h.room ▸ Nat.lt_of_not_le hle)]
    exact ⟨rfl, h⟩

namespace WriteCursor

theorem agrees_putU8 (byte : UInt8) : Act.Agrees Filled.Alike (putU8 byte) (putU8 byte) := by
  intro w w' h
  rw [putU8, putU8, ← h.len, ← h.capacity]
  split
  · exact ⟨rfl, h⟩
  · exact ⟨rfl, h.extend _⟩

theorem agrees_putSlice (slice : List UInt8) :
    Act.Agrees Filled.Alike (putSlice slice) (putSlice slice) := by
  intro w w' h
  rw [putSlice, putSlice, ← h.room]
  split
  · exact ⟨rfl, h⟩
  · exact ⟨rfl, h.extend _⟩

theorem agrees_putU16 (value : UInt16) :
    Act.Agrees Filled.Alike (putU16 value) (putU16 value) := by
  intro w w' h
  rw [putU16, putU16, ← h.room]
  split
  · exact ⟨rfl, h⟩
  · exact agrees_putSlice _ w w' h

end WriteCursor

/-! ### Fields -/

theorem agrees_writeMqttBytes (bytes : List UInt8) :
    Act.Agrees Filled.Alike (writeMqttBytes bytes) (writeMqttBytes bytes) :=
  (WriteCursor.agrees_putU16 _).bind fun _ => WriteCursor.agrees_putSlice _

theorem agrees_writeMqttString (string : String) :
    Act.Agrees Filled.Alike (writeMqttString string) (writeMqttString string) :=
  agrees_writeMqttBytes _

theorem agrees_writeRemainingLengthLoop (x count : Nat) :
    Act.Agrees Filled.Alike (writeRemainingLengthLoop x count)
      (writeRemainingLengthLoop x count) := by
  induction x using Nat.strongRecOn generalizing count with
  | ind x ih =>
    rw [writeRemainingLengthLoop]
    refine (WriteCursor.agrees_putU8 _).bind fun _ => ?_
    by_cases h0 : x / 128 = 0
    · rw [if_pos h0]
      exact .pure _
    · rw [if_neg h0]
      exact ih (x / 128) (by omega) (count + 1)

theorem agrees_writeRemainingLength (len : Nat) :
    Act.Agrees Filled.Alike (writeRemainingLength len) (writeRemainingLength len) :=
  .ite (.fail _) (agrees_writeRemainingLengthLoop len 0)

/-! ### CONNECT -/

theorem Login.agrees_write (self : Login) :
    Act.Agrees Filled.Alike self.write self.write := by
  refine .bind (.ite ((agrees_writeMqttString _).bind fun _ => .pure _) (.pure _)) fun _ => ?_
  exact .ite ((agrees_writeMqttBytes _).bind fun _ => .pure _) (.pure _)

theorem LastWill.agrees_write (self : LastWill) :
    Act.Agrees Filled.Alike self.write self.write :=
  (agrees_writeMqttString _).bind fun _ => (agrees_writeMqttBytes _).bind fun _ => .pure _

namespace Connect

theorem agrees_orFlags {α : Type} (o : Option α) {write : α → Act WriteCursor WriteError UInt8}
    (f : UInt8) (hw : ∀ a, Act.Agrees Filled.Alike (write a) (write a)) :
    Act.Agrees Filled.Alike (orFlags o write f) (orFlags o write f) := by
  cases o with
  | none => exact .pure f
  | some a => exact (hw a).bind fun _ => .pure _

theorem blind_write (self : Connect) : Blind self.write := by
  refine blind_onBuffer ?_ ?_
  · refine (WriteCursor.agrees_putU8 _).bind fun _ => ?_
    refine (agrees_writeRemainingLength _).bind fun _ => ?_
    refine (agrees_writeMqttString _).bind fun _ => ?_
    refine .bind ?_ fun _ => ?_
    · cases self.protocol <;> exact WriteCursor.agrees_putU8 _
    refine Filled.agrees_len.bind fun i => ?_
    refine (WriteCursor.agrees_putU8 _).bind fun _ => ?_
    refine (WriteCursor.agrees_putU16 _).bind fun _ => ?_
    refine (agrees_writeMqttString _).bind fun _ => ?_
    refine (agrees_orFlags _ _ LastWill.agrees_write).bind fun _ => ?_
    refine (agrees_orFlags _ _ Login.agrees_write).bind fun _ => ?_
    -- the byte that is patched is one of those that are written
    exact (Filled.agrees_patch i _).bind fun _ => Filled.agrees_len
  · refine .bind fun _ => .bind fun _ => .bind fun _ => .bind fun _ => .bind fun _ => ?_
    refine .bind fun _ => .bind fun _ => .bind fun _ => .bind fun _ => .bind fun _ => ?_
    exact .bind fun _ => counts_len

end Connect

/-! ### PUBLISH -/

theorem TopicWriter.agrees_answer (q : TopicQuery) :
    Act.Agrees Filled.Alike (answer q) (answer q) := by
  cases q with
  | addStr string => exact BorrowedBuf.agrees_addSlice _
  | len => exact Filled.agrees_len
  | capacity => exact Filled.agrees_capacity

theorem PayloadWriter.agrees_answer (q : PayloadQuery) :
    Act.Agrees Filled.Alike (answer q) (answer q) := by
  cases q with
  | addU8 byte => exact BorrowedBuf.agrees_addSlice _
  | addSlice slice => exact BorrowedBuf.agrees_addSlice _
  | addStr string => exact BorrowedBuf.agrees_addSlice _
  | len => exact Filled.agrees_len
  | capacity => exact Filled.agrees_capacity

namespace OutPublish

theorem agrees_writeTopic (topic : TopicFn) :
    Act.Agrees Filled.Alike (writeTopic topic) (writeTopic topic) := by
  refine Filled.agrees_len.bind fun i => ?_
  refine (BorrowedBuf.agrees_addSlice _).bind fun _ => ?_
  refine Filled.agrees_len.bind fun before => ?_
  refine (Dialogue.agrees_run TopicWriter.agrees_answer topic).bind fun _ => ?_
  refine Filled.agrees_len.bind fun len => ?_
  exact .ite (.fail _) (Filled.agrees_patchSlice i _)

theorem agrees_writeVarHeaderAndPayload (self : OutPublish) (topic : TopicFn)
    (payload : PayloadFn) :
    Act.Agrees Filled.Alike (self.writeVarHeaderAndPayload topic payload)
      (self.writeVarHeaderAndPayload topic payload) := by
  refine (agrees_writeTopic topic).bind fun _ => ?_
  refine .bind (.ite (.ite (.fail _) (BorrowedBuf.agrees_addSlice _)) (.pure _)) fun _ => ?_
  refine (Dialogue.agrees_run PayloadWriter.agrees_answer payload).bind fun _ => ?_
  exact Filled.agrees_len

theorem counts_writeVarHeaderAndPayload (self : OutPublish) (topic : TopicFn)
    (payload : PayloadFn) : Counts (self.writeVarHeaderAndPayload topic payload) :=
  .bind fun _ => .bind fun _ => .bind fun _ => counts_len

/-- The fixed header is put in front of the body, and what it does not use of
its room is not part of the packet. -/
theorem agrees_writeFixedHeader (self : OutPublish) {buf buf' : List UInt8} {n : Nat}
    (hlen : buf.length = buf'.length) (hn : 5 + n ≤ buf.length)
    (hbody : (buf.drop 5).take n = (buf'.drop 5).take n) :
    (self.writeFixedHeader n buf).1 = (self.writeFixedHeader n buf').1 ∧
      (self.writeFixedHeader n buf).2.length = (self.writeFixedHeader n buf').2.length := by
  have hsplit : ∀ buf : List UInt8,
      buf = buf.take 5 ++ ((buf.drop 5).take n ++ (buf.drop 5).drop n) := fun buf => by
    rw [List.take_append_drop, List.take_append_drop]
  have hhead : ∀ buf : List UInt8, 5 + n ≤ buf.length → (buf.take 5).length = 5 := fun buf h => by
    rw [List.length_take]
    omega
  have hbodyLen : ((buf.drop 5).take n).length = n := by
    rw [List.length_take, List.length_drop]
    omega
  by_cases hbig : n ≤ 268435455
  · have hpacket := @writeFixedHeader_of_le self (buf.take 5) ((buf.drop 5).take n)
      ((buf.drop 5).drop n) (hhead _ hn) (hbodyLen.trans_le hbig)
    have hpacket' := @writeFixedHeader_of_le self (buf'.take 5) ((buf.drop 5).take n)
      ((buf'.drop 5).drop n) (hhead _ (hlen ▸ hn)) (hbodyLen.trans_le hbig)
    rw [← hsplit, hbodyLen] at hpacket
    rw [hbody, ← hsplit, ← hbody, hbodyLen] at hpacket'
    rw [hpacket, hpacket']
    refine ⟨rfl, ?_⟩
    simp only [List.length_append, List.length_take, List.length_drop, hlen]
  · rw [writeFixedHeader_of_gt self (Nat.lt_of_not_le hbig),
      writeFixedHeader_of_gt self (Nat.lt_of_not_le hbig)]
    exact ⟨rfl, hlen⟩

theorem agrees_write (self : OutPublish) (topic : TopicFn) (payload : PayloadFn) :
    Act.Agrees (fun buf buf' => buf.length = buf'.length) (self.write topic payload)
      (self.write topic payload) := by
  intro buf buf' h
  rw [write, Act.bind_apply, Act.bind_apply, Act.gets_apply, Act.gets_apply, ← h]
  by_cases h5 : buf.length < 5
  · simp only [if_pos h5]
    exact ⟨rfl, h⟩
  simp only [if_neg h5]
  have hhead : (buf.take 5).length = 5 ∧ (buf'.take 5).length = 5 := by
    simp only [List.length_take]
    omega
  have hdrop : (buf.drop 5).length = (buf'.drop 5).length := by
    rw [List.length_drop, List.length_drop, h]
  have hcounts := self.counts_writeVarHeaderAndPayload topic payload
  obtain ⟨hout, hlen, htake⟩ :=
    blind_onBuffer (self.agrees_writeVarHeaderAndPayload topic payload) hcounts _ _ hdrop
  rw [Act.bind_apply, Act.bind_apply, Act.zoom_apply, Act.zoom_apply]
  rcases hb : onBuffer (self.writeVarHeaderAndPayload topic payload) (buf.drop 5) with ⟨r, b⟩
  rcases hb' : onBuffer (self.writeVarHeaderAndPayload topic payload) (buf'.drop 5) with ⟨r', b'⟩
  rw [hb, hb'] at hout hlen htake
  obtain rfl : r = r' := hout
  have hwhole : (buf.take 5 ++ b).length = (buf'.take 5 ++ b').length := by
    rw [List.length_append, List.length_append, hhead.1, hhead.2, hlen]
  cases r with
  | ok n =>
    refine self.agrees_writeFixedHeader hwhole ?_ ?_
    · rw [List.length_append, hhead.1]
      exact Nat.add_le_add_left (hcounts.le hb) 5
    · rw [List.drop_left' hhead.1, List.drop_left' hhead.2]
      exact htake n rfl
  | err | panic => exact ⟨rfl, hwhole⟩

end OutPublish

/-! ### SUBSCRIBE -/

namespace SubscribeWriter

theorem agrees_addStr (topic : String) (qos : QoS) :
    Act.Agrees Filled.Alike (addStr topic qos) (addStr topic qos) := by
  refine .ite (.fail _) ((BorrowedBuf.agrees_addSlice _).bind fun _ => ?_)
  exact (BorrowedBuf.agrees_addSlice _).bind fun _ => BorrowedBuf.agrees_addSlice _

theorem agrees_addParts (partsLen : Nat) (separator : String) : ∀ (parts : List String) (i : Nat),
    Act.Agrees Filled.Alike (addParts partsLen separator parts i)
      (addParts partsLen separator parts i) := by
  intro parts
  induction parts with
  | nil => exact fun _ => .pure ()
  | cons part parts ih =>
    intro i
    refine (BorrowedBuf.agrees_addSlice _).bind fun _ => ?_
    exact .bind (.ite (BorrowedBuf.agrees_addSlice _) (.pure _)) fun _ => ih (i + 1)

theorem agrees_addSeparated (parts : List String) (separator : String) (qos : QoS) :
    Act.Agrees Filled.Alike (addSeparated parts separator qos)
      (addSeparated parts separator qos) := by
  refine Filled.agrees_len.bind fun start => ?_
  refine (BorrowedBuf.agrees_addSlice _).bind fun _ => ?_
  refine (agrees_addParts _ _ _ _).bind fun _ => ?_
  refine Filled.agrees_len.bind fun len => ?_
  refine .ite (.fail _) ((Filled.agrees_patch start _).bind fun _ => ?_)
  exact (Filled.agrees_patch (start + 1) _).bind fun _ => BorrowedBuf.agrees_addSlice _

theorem agrees_answer (q : SubscribeQuery) :
    Act.Agrees Filled.Alike (answer q) (answer q) := by
  cases q with
  | addStr topic qos => exact agrees_addStr topic qos
  | addSeparated parts separator qos => exact agrees_addSeparated parts separator qos

/-- The payload of a SUBSCRIBE, in the hands of the user. -/
theorem blind_payload (subscriptions : SubscribeFn) :
    Blind (onBuffer do
      subscriptions.run answer
      Act.gets Filled.len) :=
  blind_onBuffer ((Dialogue.agrees_run agrees_answer subscriptions).bind fun _ =>
    Filled.agrees_len) (.bind fun _ => counts_len)

end SubscribeWriter

end Umqtt
