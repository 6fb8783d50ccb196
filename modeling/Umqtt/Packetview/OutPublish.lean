/-
Umqtt/Packetview/OutPublish.lean

The PUBLISH encoder that lets the caller write topic and payload in place
(`packetview/publish.rs`).

Topic and payload go behind five reserved bytes; once their length is known,
the fixed header is written in front of them, so that the packet starts where
its header is long enough.  The callers' closures are dialogues over the
methods of `TopicWriter` and `PayloadWriter`.  What they come to is the
concatenation of the adds that succeeded, and the encoder produces the frame of
the PUBLISH with this topic and this payload (`write_cases`).
-/
import Umqtt.Packetview.Publish

namespace Umqtt

open Effects Wire

/-! ### The writers that closures get -/

/-- The methods of `TopicWriter`. -/
inductive TopicQuery where
  | addStr (string : String)
  | len
  | capacity

def TopicQuery.Answer : TopicQuery → Type
  | addStr _ => Unit
  | len => Nat
  | capacity => Nat

/-- The methods of `PayloadWriter`. -/
inductive PayloadQuery where
  | addU8 (byte : UInt8)
  | addSlice (slice : List UInt8)
  | addStr (string : String)
  | len
  | capacity

def PayloadQuery.Answer : PayloadQuery → Type
  | addU8 _ => Unit
  | addSlice _ => Unit
  | addStr _ => Unit
  | len => Nat
  | capacity => Nat

/-- What a method appends when it succeeds. -/
def TopicQuery.bytes : TopicQuery → List UInt8
  | addStr string => asBytes string
  | _ => []

def PayloadQuery.bytes : PayloadQuery → List UInt8
  | addU8 byte => [byte]
  | addSlice slice => slice
  | addStr string => asBytes string
  | _ => []

/-- A closure that writes a topic. -/
abbrev TopicFn := Dialogue TopicQuery TopicQuery.Answer WriteError Unit

/-- A closure that writes a payload. -/
abbrev PayloadFn := Dialogue PayloadQuery PayloadQuery.Answer WriteError Unit

def TopicWriter.answer : (q : TopicQuery) → Act BorrowedBuf WriteError q.Answer
  | .addStr string => BorrowedBuf.addSlice (asBytes string)
  | .len => Act.gets Filled.len
  | .capacity => Act.gets Filled.capacity

def PayloadWriter.answer : (q : PayloadQuery) → Act BorrowedBuf WriteError q.Answer
  | .addU8 byte => BorrowedBuf.addSlice [byte]
  | .addSlice slice => BorrowedBuf.addSlice slice
  | .addStr string => BorrowedBuf.addSlice (asBytes string)
  | .len => Act.gets Filled.len
  | .capacity => Act.gets Filled.capacity

theorem emits_addSlice (bs : List UInt8) :
    Emits WriteError.notEnoughCapacity (BorrowedBuf.addSlice bs) bs () :=
  fun w => ⟨BorrowedBuf.addSlice_of_le, fun h => ⟨w, BorrowedBuf.addSlice_of_lt h, rfl⟩⟩

theorem atomic_addSlice (bs : List UInt8) (w : BorrowedBuf) :
    (bs.length ≤ w.room ∧ ∃ a, BorrowedBuf.addSlice bs w = (.ok a, w.extend bs)) ∨
      ∃ e, BorrowedBuf.addSlice bs w = (.err e, w) := by
  by_cases h : bs.length ≤ w.room
  · exact .inl ⟨h, (), BorrowedBuf.addSlice_of_le h⟩
  · exact .inr ⟨_, BorrowedBuf.addSlice_of_lt (by omega)⟩

/-- A method that only looks. -/
theorem atomic_gets {α : Type} (f : BorrowedBuf → α) (w : BorrowedBuf) :
    ∃ a, (Act.gets f : Act BorrowedBuf WriteError α) w = (.ok a, w.extend []) :=
  ⟨f w, by rw [Filled.extend_nil]; rfl⟩

theorem atomic_topicWriter : Atomic TopicWriter.answer TopicQuery.bytes := by
  intro q w
  cases q with
  | addStr string => exact atomic_addSlice _ w
  | len => exact .inl ⟨Nat.zero_le _, atomic_gets _ w⟩
  | capacity => exact .inl ⟨Nat.zero_le _, atomic_gets _ w⟩

theorem atomic_payloadWriter : Atomic PayloadWriter.answer PayloadQuery.bytes := by
  intro q w
  cases q with
  | addU8 byte => exact atomic_addSlice _ w
  | addSlice slice => exact atomic_addSlice _ w
  | addStr string => exact atomic_addSlice _ w
  | len => exact .inl ⟨Nat.zero_le _, atomic_gets _ w⟩
  | capacity => exact .inl ⟨Nat.zero_le _, atomic_gets _ w⟩

/-! ### The encoder -/

/-- A type that represents a writable publish with lazy topic and payload formatting. -/
structure OutPublish where
  dup : Bool
  qos : QoS
  retain : Bool
  pkid : UInt16
  deriving DecidableEq

namespace OutPublish

def writeTopic (topic : TopicFn) : Act BorrowedBuf WriteError Unit := do
  let topicLenStartIndex ← Act.gets Filled.len
  BorrowedBuf.addSlice [0, 0]
  let lenBeforeTopicString ← Act.gets Filled.len
  topic.run TopicWriter.answer
  let topicLen := (← Act.gets Filled.len) - lenBeforeTopicString
  if topicLen > 65535 then
    Act.fail .payloadTooLong
  else
    Filled.patchSlice topicLenStartIndex (toBeBytes (UInt16.ofNat topicLen))

def writeVarHeaderAndPayload (self : OutPublish) (topic : TopicFn) (payload : PayloadFn) :
    Act BorrowedBuf WriteError Nat := do
  writeTopic topic
  (if self.qos ≠ .atMostOnce then
    if self.pkid = 0 then
      Act.fail .malformedPacket
    else
      BorrowedBuf.addSlice (toBeBytes self.pkid)
  else
    pure ())
  payload.run PayloadWriter.answer
  Act.gets Filled.len

/-- The remaining length, written to a buffer of four bytes. -/
def remainingLenBytes (remainingLenValue : Nat) : Outcome WriteError (List UInt8) :=
  ((do
    let _ ← writeRemainingLength remainingLenValue
    Act.gets Filled.written : Act WriteCursor WriteError (List UInt8))
      (Filled.empty [0, 0, 0, 0])).1

/-- `header[i] = byte; header[i + 1..].copy_from_slice(bytes)` on the first five
bytes of a buffer: a panic unless `bytes` has the length of the rest. -/
def setHeader (i : Nat) (byte : UInt8) (bytes : List UInt8) : Act (List UInt8) WriteError Unit :=
  fun buffer =>
    if i + 1 + bytes.length = 5 then (.ok (), overwrite buffer i (byte :: bytes))
    else (.panic, buffer)

/-- The end of `write`: the fixed header goes in front of a variable header and
payload of `remainingLenValue` bytes. -/
def writeFixedHeader (self : OutPublish) (remainingLenValue : Nat) :
    Act (List UInt8) WriteError (List UInt8) := do
  let remainingLen ← Act.lift (remainingLenBytes remainingLenValue)
  let packetStartIndex := 4 - remainingLen.length
  setHeader packetStartIndex (Publish.byte1 self.dup self.qos self.retain) remainingLen
  let buffer ← Act.gets id
  Act.lift (slice buffer packetStartIndex
    (1 + packetStartIndex + remainingLen.length + remainingLenValue))

def write (self : OutPublish) (topic : TopicFn) (payload : PayloadFn) :
    Act (List UInt8) WriteError (List UInt8) := do
  if (← Act.gets List.length) < 5 then
    -- `split_at_mut(5)`
    Act.panic
  else
    let remainingLenValue ← Act.zoom (List.drop 5)
      (fun remaining buffer => buffer.take 5 ++ remaining)
      (onBuffer (self.writeVarHeaderAndPayload topic payload))
    self.writeFixedHeader remainingLenValue

/-! ### What the encoder produces -/

/-- The topic that a closure writes into the buffer `w`. -/
def topicBytes (topic : TopicFn) (w : BorrowedBuf) : List UInt8 :=
  added TopicQuery.bytes (topic.asked TopicWriter.answer (w.extend [0, 0]))

/-- The payload that a closure writes behind topic and packet id. -/
def payloadBytes (self : OutPublish) (topic : TopicFn) (payload : PayloadFn)
    (w : BorrowedBuf) : List UInt8 :=
  added PayloadQuery.bytes (payload.asked PayloadWriter.answer
    (w.extend (lenPrefixed (topicBytes topic w) ++ Publish.pkidField self.qos self.pkid)))

/-- The body that the closures write. -/
def body (self : OutPublish) (topic : TopicFn) (payload : PayloadFn) (w : BorrowedBuf) :
    List UInt8 :=
  lenPrefixed (topicBytes topic w) ++ (Publish.pkidField self.qos self.pkid ++
    self.payloadBytes topic payload w)

/-- The reserved bytes are patched once the topic is in, if its length fits into
them. -/
theorem writeTopic_of_ok {topic : TopicFn} {w : BorrowedBuf} {t : List UInt8}
    (hfit : 2 + t.length ≤ w.room)
    (h : topic.run TopicWriter.answer (w.extend [0, 0]) = (.ok (), w.extend ([0, 0] ++ t))) :
    writeTopic topic w =
      if t.length > 65535 then (.err .payloadTooLong, w.extend ([0, 0] ++ t))
      else (.ok (), w.extend (lenPrefixed t)) := by
  have hle : ([0, 0] : List UInt8).length ≤ w.room := by
    show 2 ≤ w.room
    omega
  have hfit' : ([0, 0] ++ t).length ≤ w.room := by
    rw [List.length_append]
    exact hfit
  have hlen : (w.extend ([0, 0] ++ t)).len - (w.extend [0, 0]).len = t.length := by
    rw [Filled.len_extend hfit', Filled.len_extend hle, List.length_append]
    omega
  simp only [writeTopic, Act.bind_apply, Act.gets_apply, BorrowedBuf.addSlice_of_le hle, h, hlen]
  by_cases hlong : t.length > 65535
  · rw [if_pos hlong, if_pos hlong]
    rfl
  · rw [if_neg hlong, if_neg hlong, Filled.patchSlice_extend (by rfl) hfit']
    rfl

/-- A closure that fails ends the topic. -/
theorem writeTopic_of_err {topic : TopicFn} {w w' : BorrowedBuf} {e : WriteError}
    (hroom : 2 ≤ w.room) (h : topic.run TopicWriter.answer (w.extend [0, 0]) = (.err e, w')) :
    writeTopic topic w = (.err e, w') := by
  have hle : ([0, 0] : List UInt8).length ≤ w.room := hroom
  simp only [writeTopic, Act.bind_apply, Act.gets_apply, BorrowedBuf.addSlice_of_le hle, h]

theorem writeTopic_of_lt {topic : TopicFn} {w : BorrowedBuf} (h : w.room < 2) :
    writeTopic topic w = (.err .notEnoughCapacity, w) := by
  have hlt : w.room < ([0, 0] : List UInt8).length := h
  simp only [writeTopic, Act.bind_apply, Act.gets_apply, BorrowedBuf.addSlice_of_lt hlt]

theorem writeTopic_cases (topic : TopicFn) (w : BorrowedBuf) :
    AppendsOrFails (writeTopic topic) w (lenPrefixed (topicBytes topic w)) () := by
  by_cases h2 : 2 ≤ w.room
  · have hle : ([0, 0] : List UInt8).length ≤ w.room := h2
    rcases atomic_topicWriter.appendsOrFails topic (w.extend [0, 0]) with
      ⟨hfit, hrun⟩ | ⟨e, w', hrun, hc⟩
    · change (topicBytes topic w).length ≤ _ at hfit
      change _ = (_, (w.extend [0, 0]).extend (topicBytes topic w)) at hrun
      rw [Filled.room_extend hle] at hfit
      have hfit' : ([0, 0] : List UInt8).length + (topicBytes topic w).length ≤ w.room := by
        omega
      rw [Filled.extend_extend hfit'] at hrun
      rw [AppendsOrFails, writeTopic_of_ok hfit' hrun]
      by_cases hlong : (topicBytes topic w).length > 65535
      · rw [if_pos hlong]
        exact .inr ⟨_, _, rfl, Filled.capacity_extend _ _⟩
      · rw [if_neg hlong]
        exact .inl ⟨(length_lenPrefixed _).trans_le hfit', rfl⟩
    · exact .inr ⟨e, w', writeTopic_of_err h2 hrun, by rw [hc, Filled.capacity_extend]⟩
  · exact .inr ⟨_, w, writeTopic_of_lt (by omega), rfl⟩

theorem writeVarHeaderAndPayload_cases (self : OutPublish) (topic : TopicFn)
    (payload : PayloadFn) (w : BorrowedBuf) :
    AppendsOrFails (self.writeVarHeaderAndPayload topic payload) w (self.body topic payload w)
      (w.len + (self.body topic payload w).length) := by
  have hpkid : ∀ w, AppendsOrFails (if self.qos ≠ .atMostOnce then
        if self.pkid = 0 then Act.fail .malformedPacket
        else BorrowedBuf.addSlice (toBeBytes self.pkid)
      else pure () : Act BorrowedBuf WriteError Unit) w
      (Publish.pkidField self.qos self.pkid) () := by
    intro w
    rw [Publish.pkidField]
    by_cases hq : self.qos = .atMostOnce
    · rw [if_neg (not_not.mpr hq), if_pos hq]
      exact .pure
    · rw [if_pos hq, if_neg hq]
      split
      · exact .fail _
      · exact (emits_addSlice _).appendsOrFails w
  refine (writeTopic_cases topic w).bind fun ht => (hpkid _).bind fun hp => ?_
  rw [Filled.room_extend ht] at hp
  rw [Filled.extend_extend (by omega), ← List.append_nil (self.payloadBytes topic payload w)]
  refine (atomic_payloadWriter.appendsOrFails payload _).bind fun hle => .len ?_
  rw [Filled.len_extend hle, Filled.len_extend (by rw [List.length_append]; omega), Nat.add_assoc,
    ← List.length_append, List.append_assoc]
  rfl

theorem remainingLenBytes_of_le {n : Nat} (h : n ≤ 268435455) :
    remainingLenBytes n = .ok (base128 n) := by
  have h4 : (base128 n).length ≤ (Filled.empty [0, 0, 0, 0]).room :=
    length_base128_le (k := 3) (by omega)
  rw [remainingLenBytes, Act.bind_of_ok ((emits_writeRemainingLength h _).1 h4), Act.gets_apply,
    Filled.written_extend h4]
  rfl

theorem remainingLenBytes_of_gt {n : Nat} (h : 268435455 < n) :
    remainingLenBytes n = .err .payloadTooLong := by
  rw [remainingLenBytes, writeRemainingLength, if_pos h]
  rfl

theorem setHeader_apply {byte : UInt8} {bytes header rest : List UInt8} (h5 : header.length = 5)
    (h4 : bytes.length ≤ 4) :
    setHeader (4 - bytes.length) byte bytes (header ++ rest) =
      (.ok (), header.take (4 - bytes.length) ++ (byte :: bytes ++ rest)) := by
  have hdrop : 4 - bytes.length + (byte :: bytes).length = header.length := by
    rw [List.length_cons]
    omega
  rw [setHeader, if_pos (by omega), overwrite, hdrop, List.drop_left,
    List.take_append_of_le_length (by omega), List.append_assoc]

theorem writeFixedHeader_of_le (self : OutPublish) {header body rest : List UInt8}
    (h5 : header.length = 5) (h : body.length ≤ 268435455) :
    self.writeFixedHeader body.length (header ++ (body ++ rest)) =
      (.ok (frame (Publish.byte1 self.dup self.qos self.retain) body),
        header.take (4 - (base128 body.length).length) ++
          (frame (Publish.byte1 self.dup self.qos self.retain) body ++ rest)) := by
  have h4 : (base128 body.length).length ≤ 4 := length_base128_le (k := 3) (by omega)
  have hpre : (header.take (4 - (base128 body.length).length)).length =
      4 - (base128 body.length).length := by
    rw [List.length_take]
    omega
  have hframe : (Publish.byte1 self.dup self.qos self.retain :: base128 body.length) ++
      (body ++ rest) = frame (Publish.byte1 self.dup self.qos self.retain) body ++ rest := by
    simp [frame]
  have hend : 1 + (4 - (base128 body.length).length) + (base128 body.length).length +
      body.length = (header.take (4 - (base128 body.length).length)).length +
        (frame (Publish.byte1 self.dup self.qos self.retain) body).length := by
    rw [hpre, frame, List.length_cons, List.length_append]
    omega
  have hslice := @slice_middle UInt8 WriteError
    (header.take (4 - (base128 body.length).length))
    (frame (Publish.byte1 self.dup self.qos self.retain) body) rest
  rw [← hend, hpre] at hslice
  simp only [writeFixedHeader, Act.bind_apply, Act.lift_apply, remainingLenBytes_of_le h,
    setHeader_apply h5 h4, hframe, Act.gets_apply, id_eq, hslice]

theorem writeFixedHeader_of_gt (self : OutPublish) {n : Nat} (h : 268435455 < n)
    (buf : List UInt8) : self.writeFixedHeader n buf = (.err .payloadTooLong, buf) := by
  rw [writeFixedHeader, remainingLenBytes_of_gt h]
  rfl

/-- Without room for the fixed header, the buffer cannot be split. -/
theorem write_of_lt (self : OutPublish) (topic : TopicFn) (payload : PayloadFn)
    {buf : List UInt8} (h : buf.length < 5) : self.write topic payload buf = (.panic, buf) := by
  rw [write, Act.bind_apply, Act.gets_apply]
  simp only [if_pos h, Act.panic_apply]

/-- With room for the fixed header, the closures write behind five bytes that
are kept for it. -/
theorem write_eq (self : OutPublish) (topic : TopicFn) (payload : PayloadFn) {buf : List UInt8}
    (h5 : 5 ≤ buf.length) :
    self.write topic payload buf = (Act.zoom (List.drop 5)
      (fun remaining buffer => buffer.take 5 ++ remaining)
      (onBuffer (self.writeVarHeaderAndPayload topic payload)) >>= self.writeFixedHeader) buf := by
  rw [write, Act.bind_apply, Act.gets_apply]
  simp only [if_neg (Nat.not_lt.mpr h5)]

theorem length_take_append {buf rest : List UInt8} (h : rest.length = (buf.drop 5).length) :
    (buf.take 5 ++ rest).length = buf.length := by
  rw [List.length_append, h, ← List.length_append, List.take_append_drop]

/-- Behind closures that wrote a body, the header is written in front of it,
unless the body is too long for a remaining length. -/
theorem write_of_ok (self : OutPublish) {topic : TopicFn} {payload : PayloadFn}
    {buf body : List UInt8} (hfit : 5 + body.length ≤ buf.length)
    (h : self.writeVarHeaderAndPayload topic payload (Filled.empty (buf.drop 5)) =
      (.ok body.length, (Filled.empty (buf.drop 5)).extend body)) :
    ∃ buf', self.write topic payload buf =
        (if body.length ≤ 268435455 then
          .ok (frame (Publish.byte1 self.dup self.qos self.retain) body)
        else .err .payloadTooLong, buf') ∧ buf'.length = buf.length := by
  have hhead : (buf.take 5).length = 5 := by
    rw [List.length_take]
    omega
  have hroom : body.length ≤ (Filled.empty (buf.drop 5)).room := by
    show body.length ≤ (buf.drop 5).length - 0
    rw [List.length_drop]
    omega
  have hbuf : ((Filled.empty (buf.drop 5)).extend body).buffer =
      body ++ (buf.drop 5).drop body.length :=
    (Filled.buffer_extend hroom).trans overwrite_zero
  have hsame := length_take_append (Filled.capacity_extend (Filled.empty (buf.drop 5)) body)
  rw [self.write_eq topic payload (by omega), Act.bind_apply, Act.zoom_apply, onBuffer,
    Act.zoom_apply, h]
  simp only [hbuf] at hsame ⊢
  by_cases hbig : body.length ≤ 268435455
  · rw [self.writeFixedHeader_of_le hhead hbig, if_pos hbig]
    refine ⟨_, rfl, ?_⟩
    rw [← hsame]
    have h4 : (base128 body.length).length ≤ 4 := length_base128_le (k := 3) (by omega)
    simp only [frame, List.length_append, List.length_take, List.length_cons]
    omega
  · rw [self.writeFixedHeader_of_gt (by omega), if_neg hbig]
    exact ⟨_, rfl, hsame⟩

/-- Behind closures that failed there is no header. -/
theorem write_of_err (self : OutPublish) {topic : TopicFn} {payload : PayloadFn}
    {buf : List UInt8} {e : WriteError} {w : BorrowedBuf} (h5 : 5 ≤ buf.length)
    (h : self.writeVarHeaderAndPayload topic payload (Filled.empty (buf.drop 5)) = (.err e, w))
    (hc : w.capacity = (Filled.empty (buf.drop 5)).capacity) :
    ∃ buf', self.write topic payload buf = (.err e, buf') ∧ buf'.length = buf.length := by
  rw [self.write_eq topic payload h5, Act.bind_apply, Act.zoom_apply, onBuffer, Act.zoom_apply, h]
  exact ⟨_, rfl, length_take_append hc⟩

/-- With room for the fixed header, the encoder returns the frame of the body
that the closures wrote, or it fails; it never panics. -/
theorem write_cases (self : OutPublish) (topic : TopicFn) (payload : PayloadFn)
    {buf : List UInt8} (h5 : 5 ≤ buf.length) :
    let body := self.body topic payload (Filled.empty (buf.drop 5))
    (body.length ≤ 268435455 ∧ body.length + 5 ≤ buf.length ∧
      ∃ buf', self.write topic payload buf =
          (.ok (frame (Publish.byte1 self.dup self.qos self.retain) body), buf') ∧
        buf'.length = buf.length) ∨
    ∃ e buf', self.write topic payload buf = (.err e, buf') ∧ buf'.length = buf.length := by
  intro body
  rcases self.writeVarHeaderAndPayload_cases topic payload (Filled.empty (buf.drop 5)) with
    ⟨hfit, hx⟩ | ⟨e, w', hx, hc⟩
  · change body.length ≤ (buf.drop 5).length - 0 at hfit
    change _ = (Outcome.ok (0 + body.length), (Filled.empty (buf.drop 5)).extend body) at hx
    rw [List.length_drop] at hfit
    rw [Nat.zero_add] at hx
    obtain ⟨buf', hbuf, hlen⟩ := self.write_of_ok (by omega) hx
    by_cases hbig : body.length ≤ 268435455
    · rw [if_pos hbig] at hbuf
      exact .inl ⟨hbig, by omega, buf', hbuf, hlen⟩
    · rw [if_neg hbig] at hbuf
      exact .inr ⟨_, buf', hbuf, hlen⟩
  · obtain ⟨buf', hbuf, hlen⟩ := self.write_of_err h5 hx hc
    exact .inr ⟨e, buf', hbuf, hlen⟩

end OutPublish

end Umqtt
