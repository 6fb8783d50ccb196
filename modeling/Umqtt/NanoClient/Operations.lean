/-
Umqtt/NanoClient/Operations.lean

What the parts of the operations can do: one relation for each, which lists all
ways in which it ends, with the world behind it.  What holds of the operations,
and of runs of them, follows from these lists.

  * `BufferWritten`   `write_buffer`
  * `SomeRead`        `read_some_with_timeout`
  * `Sent`            the operations that encode a packet and write it

`Trace w evs w'` says what they have in common: from `w` to `w'` the platform
calls `evs` were made, and the bytes they received, and only these, were
appended to the receive buffer.  A closed client asks nothing of its platform
until it connects again (`perform_untouched`).
-/
import Umqtt.NanoClient.Client

namespace Umqtt

open Effects Wire

namespace NanoClient

section Relations

variable {σ E : Type}

/-! ### Worlds -/

namespace World

def state (w : World σ E) : State := w.client.transportClient.state

/-- The received bytes in the receive buffer. -/
def content (w : World σ E) : List UInt8 := w.client.rxBuffer.content

def capacity (w : World σ E) : Nat := w.client.rxBuffer.capacity

def Valid (w : World σ E) : Prop := w.client.rxBuffer.Valid

/-- The client knows that the transport is gone. -/
def closed (w : World σ E) : World σ E :=
  { w with client := { w.client with
      transportClient := w.client.transportClient.onTransportClosed } }

def withTx (txBuffer : List UInt8) (w : World σ E) : World σ E :=
  { w with client := { w.client with txBuffer } }

def advanced (n : Nat) (w : World σ E) : World σ E :=
  { w with client := { w.client with rxBuffer := w.client.rxBuffer.advance n } }

/-- The world behind a write. -/
def wrote (w : World σ E) (buf : List UInt8) (result : Except E Unit) (s : σ) : World σ E :=
  { w with platform := s, log := w.log ++ [.wrote w.state buf result] }

/-- The world behind a look at the clock. -/
def clocked (w : World σ E) (now : Instant) (s : σ) : World σ E :=
  { w with platform := s, log := w.log ++ [.clock now] }

/-- The world behind a read that left `buf` in the unused part of the buffer. -/
def afterRead (w : World σ E) (timeout : Option Duration) (result : Except E (Option Nat))
    (buf : List UInt8) (s : σ) : World σ E where
  client := { w.client with rxBuffer := w.client.rxBuffer.storeUnused buf }
  platform := s
  log := w.log ++ [.read timeout result buf]

/-- The keep-alive deadline is moved. -/
def packetSent (now : Instant) (w : World σ E) : World σ E :=
  { w with client := { w.client with
      transportClient := w.client.transportClient.onPacketSent now } }

@[simp] theorem state_packetSent (now : Instant) (w : World σ E) :
    (w.packetSent now).state = w.state := TransportClient.onPacketSent_state _ _

end World

theorem isDisconnected_iff {c : NanoClient} :
    c.isDisconnected = true ↔ c.transportClient.state = .disconnected := by
  unfold isDisconnected TransportClient.isDisconnected
  cases c.transportClient.state <;> simp

/-! ### Traces -/

/-- From `w` to `w'` the calls `evs` of the platform were made. -/
structure Logged (w : World σ E) (evs : List (Event E)) (w' : World σ E) : Prop where
  log : w'.log = w.log ++ evs
  valid : w'.Valid
  capacity : w'.capacity = w.capacity
  maxPacketSize : w'.client.transportClient.maxPacketSize = w.client.transportClient.maxPacketSize

/-- The bytes that the calls received, and only these, were appended to the
receive buffer. -/
structure Trace (w : World σ E) (evs : List (Event E)) (w' : World σ E) : Prop extends
    Logged w evs w' where
  content : w'.content = w.content ++ received evs
  txLength : w'.client.txBuffer.length = w.client.txBuffer.length

section Traces

variable {w t u : World σ E} {evs evs' : List (Event E)}

theorem Logged.refl (h : w.Valid) : Logged w [] w := ⟨(List.append_nil _).symm, h, rfl, rfl⟩

theorem Logged.trans (h : Logged w evs t) (h' : Logged t evs' u) : Logged w (evs ++ evs') u where
  log := by rw [h'.log, h.log, List.append_assoc]
  valid := h'.valid
  capacity := h'.capacity.trans h.capacity
  maxPacketSize := h'.maxPacketSize.trans h.maxPacketSize

theorem Trace.refl (h : w.Valid) : Trace w [] w :=
  ⟨.refl h, (List.append_nil _).symm, rfl⟩

theorem Trace.trans (h : Trace w evs t) (h' : Trace t evs' u) : Trace w (evs ++ evs') u where
  toLogged := h.toLogged.trans h'.toLogged
  content := by rw [h'.content, h.content, received_append, List.append_assoc]
  txLength := h'.txLength.trans h.txLength

theorem Trace.closed (h : Trace w evs t) : Trace w evs t.closed :=
  ⟨⟨h.log, h.valid, h.capacity, h.maxPacketSize⟩, h.content, h.txLength⟩

theorem Trace.packetSent (h : Trace w evs t) (now : Instant) : Trace w evs (t.packetSent now) :=
  ⟨⟨h.log, h.valid, h.capacity, (TransportClient.onPacketSent_maxPacketSize _ _).trans
    h.maxPacketSize⟩, h.content, h.txLength⟩

theorem Trace.clocked (h : w.Valid) (now : Instant) (s : σ) :
    Trace w [.clock now] (w.clocked now s) :=
  ⟨⟨rfl, h, rfl, rfl⟩, (List.append_nil _).symm, rfl⟩

theorem Trace.wrote (h : w.Valid) (buf : List UInt8) (result : Except E Unit) (s : σ) :
    Trace w [.wrote w.state buf result] (w.wrote buf result s) :=
  ⟨⟨rfl, h, rfl, rfl⟩, (List.append_nil _).symm, rfl⟩

theorem Trace.withTx (h : w.Valid) {b : List UInt8} (hb : b.length = w.client.txBuffer.length) :
    Trace w [] (w.withTx b) :=
  ⟨⟨(List.append_nil _).symm, h, rfl, rfl⟩, (List.append_nil _).symm, hb⟩

end Traces

variable (p : Platform σ E)

/-! ### Writing -/

/-- The ways in which `write_buffer` ends. -/
inductive BufferWritten (buf : List UInt8) (w : World σ E) :
    Outcome (Error E) Unit → World σ E → Prop where
  | closed : w.state = .disconnected → BufferWritten buf w (.err .connectionClosed) w
  | sent {s s' : σ} {now : Instant} : w.state ≠ .disconnected →
      p.writeAll buf w.platform = (.ok (), s) → p.now s = (now, s') →
      BufferWritten buf w (.ok ()) (((w.wrote buf (.ok ()) s).clocked now s').packetSent now)
  | broken {e : E} {s : σ} : w.state ≠ .disconnected →
      p.writeAll buf w.platform = (.error e, s) →
      BufferWritten buf w (.err (.io e)) (w.wrote buf (.error e) s).closed

section WriteBuffer

variable {buf : List UInt8} {w : World σ E}

theorem writeBuffer_of_disconnected (h : w.state = .disconnected) :
    writeBuffer p buf w = (.err .connectionClosed, w) := by
  have hd : w.client.isDisconnected = true := isDisconnected_iff.mpr h
  rw [writeBuffer, Act.bind_apply, Act.gets_apply]
  simp only [hd, if_true, Act.fail_apply]

theorem writeBuffer_of_ok {s : σ} (h : w.state ≠ .disconnected)
    (hw : p.writeAll buf w.platform = (.ok (), s)) :
    writeBuffer p buf w =
      (.ok (), ((w.wrote buf (.ok ()) s).clocked (p.now s).1 (p.now s).2).packetSent
        (p.now s).1) := by
  have hd : ¬w.client.isDisconnected = true := mt isDisconnected_iff.mp h
  rw [writeBuffer, Act.bind_apply, Act.gets_apply]
  simp only [hd, Bool.false_eq_true, if_false, Act.bind_apply, platformWriteAll, hw, platformNow]
  rfl

theorem writeBuffer_of_error {e : E} {s : σ} (h : w.state ≠ .disconnected)
    (hw : p.writeAll buf w.platform = (.error e, s)) :
    writeBuffer p buf w = (.err (.io e), (w.wrote buf (.error e) s).closed) := by
  have hd : ¬w.client.isDisconnected = true := mt isDisconnected_iff.mp h
  rw [writeBuffer, Act.bind_apply, Act.gets_apply]
  simp only [hd, Bool.false_eq_true, if_false, Act.bind_apply, platformWriteAll, hw]
  rfl

end WriteBuffer

theorem bufferWritten (buf : List UInt8) (w : World σ E) :
    BufferWritten p buf w (writeBuffer p buf w).1 (writeBuffer p buf w).2 := by
  by_cases h : w.state = .disconnected
  · rw [writeBuffer_of_disconnected p h]
    exact .closed h
  · rcases hw : p.writeAll buf w.platform with ⟨⟨⟩ | ⟨⟩, s⟩
    · rw [writeBuffer_of_error p h hw]
      exact .broken h hw
    · rw [writeBuffer_of_ok p h hw]
      exact .sent h hw rfl

/-- What becomes of two buffers that are written one behind the other. -/
inductive PairWritten (buf buf' : List UInt8) (w : World σ E) :
    Outcome (Error E) Unit → World σ E → Prop where
  | first {r : Outcome (Error E) Unit} {w' : World σ E} : BufferWritten p buf w r w' →
      r ≠ .ok () → PairWritten buf buf' w r w'
  | second {t w' : World σ E} {r : Outcome (Error E) Unit} : BufferWritten p buf w (.ok ()) t →
      t.state ≠ .disconnected → BufferWritten p buf' t r w' → PairWritten buf buf' w r w'

theorem pairWritten (buf buf' : List UInt8) (w : World σ E) :
    PairWritten p buf buf' w
      ((do writeBuffer p buf; writeBuffer p buf' : Act (World σ E) (Error E) Unit) w).1
      ((do writeBuffer p buf; writeBuffer p buf' : Act (World σ E) (Error E) Unit) w).2 := by
  have hw := bufferWritten p buf w
  rcases hfirst : writeBuffer p buf w with ⟨⟨⟩ | e | _, t⟩
  · rw [hfirst] at hw
    rw [Act.bind_of_ok hfirst]
    refine .second hw ?_ (bufferWritten p buf' t)
    cases hw with
    | sent hs => exact fun hclosed => hs ((World.state_packetSent _ _).symm.trans hclosed)
  · rw [hfirst] at hw
    rw [Act.bind_of_err hfirst]
    exact .first hw (by rintro ⟨⟩)
  · rw [hfirst] at hw
    cases hw

/-! ### Reading -/

/-- The ways in which `read_some_with_timeout` ends. -/
inductive SomeRead (timeout : Option Duration) (w : World σ E) :
    Outcome (Error E) (Option Nat) → World σ E → Prop where
  | invalid : ¬w.Valid → SomeRead timeout w .panic w
  | idle {buf : List UInt8} {s : σ} : w.Valid →
      p.readSome (w.client.rxBuffer.buffer.drop w.client.rxBuffer.used) timeout w.platform =
        ((.ok none, buf), s) →
      SomeRead timeout w (.ok none) (w.afterRead timeout (.ok none) buf s)
  | eof {buf : List UInt8} {s : σ} : w.Valid →
      p.readSome (w.client.rxBuffer.buffer.drop w.client.rxBuffer.used) timeout w.platform =
        ((.ok (some 0), buf), s) →
      SomeRead timeout w (.err .connectionClosed)
        (w.afterRead timeout (.ok (some 0)) buf s).closed
  | failed {e : E} {buf : List UInt8} {s : σ} : w.Valid →
      p.readSome (w.client.rxBuffer.buffer.drop w.client.rxBuffer.used) timeout w.platform =
        ((.error e, buf), s) →
      SomeRead timeout w (.err (.io e)) (w.afterRead timeout (.error e) buf s).closed
  | bytes {n : Nat} {buf : List UInt8} {s : σ} : w.Valid → n ≠ 0 →
      p.readSome (w.client.rxBuffer.buffer.drop w.client.rxBuffer.used) timeout w.platform =
        ((.ok (some n), buf), s) →
      SomeRead timeout w (.ok (some n))
        ((w.afterRead timeout (.ok (some n)) buf s).advanced n)

theorem platformReadSome_eq {timeout : Option Duration} {w : World σ E} (hv : w.Valid)
    {result : Except E (Option Nat)} {buf : List UInt8} {s : σ}
    (h : p.readSome (w.client.rxBuffer.buffer.drop w.client.rxBuffer.used) timeout w.platform =
      ((result, buf), s)) :
    platformReadSome p timeout w = (.ok result, w.afterRead timeout result buf s) := by
  simp only [platformReadSome, Buffer.unusedSlice_eq hv, h]
  rfl

theorem someRead (timeout : Option Duration) (w : World σ E) :
    SomeRead p timeout w (readSomeWithTimeout p timeout w).1
      (readSomeWithTimeout p timeout w).2 := by
  by_cases hv : w.Valid
  · rcases hr : p.readSome (w.client.rxBuffer.buffer.drop w.client.rxBuffer.used) timeout
        w.platform with ⟨⟨e | - | n, buf⟩, s⟩
    · rw [readSomeWithTimeout, Act.bind_of_ok (platformReadSome_eq p hv hr)]
      exact .failed hv hr
    · rw [readSomeWithTimeout, Act.bind_of_ok (platformReadSome_eq p hv hr)]
      exact .idle hv hr
    · rw [readSomeWithTimeout, Act.bind_of_ok (platformReadSome_eq p hv hr)]
      by_cases hn : n = 0
      · subst hn
        exact .eof hv hr
      · simp only [if_neg hn]
        exact .bytes hv hn hr
  · have hpanic : platformReadSome p timeout w = (.panic, w) := by
      rw [platformReadSome, Buffer.unusedSlice_of_not hv]
    rw [readSomeWithTimeout, Act.bind_apply, hpanic]
    exact .invalid hv

/-! ### Sending -/

/-- A whole packet with the first byte `byte1`. -/
def IsPacket (byte1 : UInt8) (buf : List UInt8) : Prop :=
  ∃ body, body.length ≤ 268435455 ∧ buf = frame byte1 body

/-- The bytes of a packet that the caller sends. -/
def Send.Bytes : Send → List UInt8 → Prop
  | .pingRequest, buf => buf = frame 0xC0 []
  | .pubAck packetId, buf => buf = frame 0x40 (toBeBytes packetId)
  | .pubRec packetId, buf => buf = frame 0x50 (toBeBytes packetId)
  | .pubComp packetId, buf => buf = frame 0x70 (toBeBytes packetId)
  | .publish out _ _, buf => IsPacket (Publish.byte1 out.dup out.qos out.retain) buf
  | .publishQos0 _ _, buf => IsPacket (Publish.byte1 false .atMostOnce false) buf
  | .publishQos1 _ _ _, buf => IsPacket (Publish.byte1 false .atLeastOnce false) buf

/-- A tx buffer of `n` bytes may be too short for the packet.  What a PUBLISH
needs is up to its closures. -/
def Send.Short : Send → Nat → Prop
  | .pingRequest, n => n < (frame 0xC0 []).length
  | .pubAck packetId, n => n < (frame 0x40 (toBeBytes packetId)).length
  | .pubRec packetId, n => n < (frame 0x50 (toBeBytes packetId)).length
  | .pubComp packetId, n => n < (frame 0x70 (toBeBytes packetId)).length
  | _, _ => True

/-- The ways in which an operation ends that encodes a packet of the kind `F`
into the tx buffer and writes it.  It panics only if the tx buffer has no room
for a fixed header, and fails to encode the packet only if it is `short`. -/
inductive Sent (F : List UInt8 → Prop) (short : Nat → Prop) (w : World σ E) :
    Outcome (Error E) Unit → World σ E → Prop where
  | panicked : w.client.txBuffer.length < 5 → Sent F short w .panic w
  | notEncoded {e : WriteError} {b : List UInt8} : short w.client.txBuffer.length →
      b.length = w.client.txBuffer.length → Sent F short w (.err (.writeError e)) (w.withTx b)
  | encoded {b buf : List UInt8} {r : Outcome (Error E) Unit} {w' : World σ E} :
      b.length = w.client.txBuffer.length → F buf → BufferWritten p buf (w.withTx b) r w' →
      Sent F short w r w'

variable {w : World σ E}

/-- What an encoder does to the tx buffer. -/
theorem onTx_apply {α : Type} {write : Act (List UInt8) WriteError α}
    {r : Outcome WriteError α} {b : List UInt8} (h : write w.client.txBuffer = (r, b)) :
    (onTx (write.mapErr .writeError) : Act (World σ E) (Error E) α) w =
      (r.mapErr .writeError, w.withTx b) := by
  rw [onTx, Act.zoom_apply, Act.mapErr_apply, h]
  rfl

theorem writeAll_of_le {size : Nat} (h : size ≤ w.client.txBuffer.length) :
    writeAll p size w = writeBuffer p (w.client.txBuffer.take size) w := by
  rw [writeAll, Act.bind_apply, Act.gets_apply]
  exact Act.bind_of_ok (by rw [Act.lift_apply, slice_zero h])

/-- What an encoder left at the start of the tx buffer is written. -/
theorem writeAll_overwrite {bs : List UInt8} (h : bs.length ≤ w.client.txBuffer.length) :
    writeAll p bs.length (w.withTx (overwrite w.client.txBuffer 0 bs)) =
      writeBuffer p bs (w.withTx (overwrite w.client.txBuffer 0 bs)) := by
  have h0 : 0 + bs.length ≤ w.client.txBuffer.length := (Nat.zero_add _).trans_le h
  have htake := take_overwrite h0
  rw [Nat.zero_add, List.take_zero, List.nil_append] at htake
  have hall := @writeAll_of_le _ _ p (w.withTx (overwrite w.client.txBuffer 0 bs)) bs.length
    (h.trans_eq (length_overwrite h0).symm)
  exact hall.trans (congrArg (fun buf => writeBuffer p buf _) htake)

theorem sendPacket_of_le {write : Act (List UInt8) WriteError Nat} {bs : List UInt8}
    (hw : Writes WriteError.notEnoughCapacity write bs)
    (h : bs.length ≤ w.client.txBuffer.length) :
    sendPacket p write w = writeBuffer p bs (w.withTx (overwrite w.client.txBuffer 0 bs)) := by
  rw [sendPacket, Act.bind_of_ok (onTx_apply ((hw _).1 h))]
  exact writeAll_overwrite p h

theorem sendPacket_sent {write : Act (List UInt8) WriteError Nat} {bs : List UInt8}
    (hw : Writes WriteError.notEnoughCapacity write bs) (w : World σ E) :
    Sent p (· = bs) (· < bs.length) w (sendPacket p write w).1 (sendPacket p write w).2 := by
  by_cases h : bs.length ≤ w.client.txBuffer.length
  · rw [sendPacket_of_le p hw h]
    exact .encoded (length_overwrite ((Nat.zero_add _).trans_le h)) rfl (bufferWritten p bs _)
  · obtain ⟨b, hb, hlen⟩ := (hw w.client.txBuffer).2 (Nat.lt_of_not_le h)
    rw [sendPacket, Act.bind_of_err (onTx_apply hb)]
    exact .notEncoded (Nat.lt_of_not_le h) hlen

theorem sendPublish_sent (publish : OutPublish) (topic : TopicFn) (payload : PayloadFn)
    (w : World σ E) :
    Sent p (IsPacket (Publish.byte1 publish.dup publish.qos publish.retain)) (fun _ => True) w
      (sendPublish p publish topic payload w).1 (sendPublish p publish topic payload w).2 := by
  by_cases h5 : 5 ≤ w.client.txBuffer.length
  · rcases publish.write_cases topic payload h5 with
      ⟨hbig, -, b, hb, hlen⟩ | ⟨e, b, hb, hlen⟩
    · rw [sendPublish, Act.bind_of_ok (onTx_apply hb)]
      exact .encoded hlen ⟨_, hbig, rfl⟩ (bufferWritten p _ _)
    · rw [sendPublish, Act.bind_of_err (onTx_apply hb)]
      exact .notEncoded trivial hlen
  · have hshort := Nat.lt_of_not_le h5
    rw [sendPublish, Act.bind_apply, onTx_apply (publish.write_of_lt topic payload hshort)]
    exact .panicked hshort

theorem performSend_sent (packet : Send) (w : World σ E) :
    Sent p packet.Bytes packet.Short w (performSend p packet w).1 (performSend p packet w).2 := by
  cases packet with
  | pingRequest => exact sendPacket_sent p (writes_writeEmpty 0xC0) w
  | pubAck packetId => exact sendPacket_sent p (writes_writeAck 0x40 packetId) w
  | pubRec packetId => exact sendPacket_sent p (writes_writeAck 0x50 packetId) w
  | pubComp packetId => exact sendPacket_sent p (writes_writeAck 0x70 packetId) w
  | publish publish topic payload => exact sendPublish_sent p publish topic payload w
  | publishQos0 topic payload =>
    exact sendPublish_sent p ⟨false, .atMostOnce, false, 0⟩ topic payload w
  | publishQos1 packetId topic payload =>
    exact sendPublish_sent p ⟨false, .atLeastOnce, false, packetId⟩ topic payload w

/-! ### Completing a notification -/

/-- The packet that an action sends. -/
def packetOf : NotificationAction → Option Send
  | .none => none
  | .pingReq => some .pingRequest
  | .pubAck packetId => some (.pubAck packetId)
  | .pubRec packetId => some (.pubRec packetId)
  | .pubComp packetId => some (.pubComp packetId)

def performAction (action : NotificationAction) : Act (World σ E) (Error E) Unit :=
  match packetOf action with
  | none => pure ()
  | some packet => performSend p packet

def World.withRx (rxBuffer : Buffer) (w : World σ E) : World σ E :=
  { w with client := { w.client with rxBuffer } }

/-- Completing a notification drops the bytes it takes, and then sends the
packet of its action. -/
theorem completeNotification_cases (completion : NotificationCompletion) (w : World σ E) :
    (¬w.Valid ∧ completeNotification p completion w = (.panic, w)) ∨
    ∃ b : Buffer, (w.Valid → b.Valid ∧ b.content = w.content.drop completion.taken ∧
        b.capacity = w.capacity) ∧
      completeNotification p completion w = performAction p completion.action (w.withRx b) := by
  have haction : ∀ w', (match completion.action with
      | .none => pure ()
      | .pingReq => sendPingRequest p
      | .pubAck packetId => sendPubAck p packetId
      | .pubRec packetId => sendPubRec p packetId
      | .pubComp packetId => sendPubComp p packetId : Act (World σ E) (Error E) Unit) w' =
        performAction p completion.action w' := by
    intro w'
    cases completion.action <;> rfl
  by_cases htaken : completion.taken > 0
  · have hrun : ∀ b : Buffer, (Buffer.removePrefix completion.taken : Act Buffer (Error E) Unit)
        w.client.rxBuffer = (.ok (), b) →
          completeNotification p completion w = performAction p completion.action (w.withRx b) := by
      intro b hb
      rw [completeNotification, if_pos htaken, Act.bind_apply, onRx, Act.zoom_apply, hb]
      exact haction _
    by_cases hv : w.Valid
    · obtain ⟨b, hb, hvalid, hcontent, hcap⟩ := @Buffer.removePrefix_spec (Error E)
        w.client.rxBuffer hv completion.taken
      exact .inr ⟨b, fun _ => ⟨hvalid, hcontent, hcap⟩, hrun b hb⟩
    · by_cases hall : completion.taken ≥ w.client.rxBuffer.used
      · exact .inr ⟨_, fun h => absurd h hv, hrun _ (if_pos hall)⟩
      · have hpanic : (Buffer.removePrefix completion.taken : Act Buffer (Error E) Unit)
            w.client.rxBuffer = (.panic, w.client.rxBuffer) := (if_neg hall).trans (if_neg hv)
        refine .inl ⟨hv, ?_⟩
        rw [completeNotification, if_pos htaken, Act.bind_apply, onRx, Act.zoom_apply, hpanic]
  · have h0 : completion.taken = 0 := by omega
    refine .inr ⟨w.client.rxBuffer, fun hv => ⟨hv, by rw [h0, List.drop_zero]; rfl, rfl⟩, ?_⟩
    rw [completeNotification, if_neg htaken]
    exact haction w

/-! ### A closed client -/

/-- Nothing has been asked of the platform, and the client is still closed. -/
structure Untouched (w w' : World σ E) : Prop where
  state : w'.state = .disconnected
  platform : w'.platform = w.platform
  log : w'.log = w.log
  logged : w.Valid → Logged w [] w'

theorem Untouched.refl (hs : w.state = .disconnected) : Untouched w w := ⟨hs, rfl, rfl, .refl⟩

theorem Untouched.trans {t u : World σ E} (h : Untouched w t) (h' : Untouched t u) :
    Untouched w u where
  state := h'.state
  platform := h'.platform.trans h.platform
  log := h'.log.trans h.log
  logged hv := (h.logged hv).trans (h'.logged (h.logged hv).valid)

theorem Sent.untouched {F : List UInt8 → Prop} {short : Nat → Prop}
    {r : Outcome (Error E) Unit} {w' : World σ E} (h : Sent p F short w r w')
    (hs : w.state = .disconnected) : Untouched w w' := by
  cases h with
  | panicked => exact .refl hs
  | notEncoded _ hb => exact ⟨hs, rfl, rfl, fun hv => (Trace.withTx hv hb).toLogged⟩
  | encoded hb _ hw =>
    cases hw with
    | closed => exact ⟨hs, rfl, rfl, fun hv => (Trace.withTx hv hb).toLogged⟩
    | sent hne | broken hne => exact absurd hs hne

theorem performAction_untouched (action : NotificationAction) (hs : w.state = .disconnected) :
    Untouched w (performAction p action w).2 := by
  unfold performAction
  cases packetOf action with
  | none => exact .refl hs
  | some packet => exact (performSend_sent p packet w).untouched p hs

theorem completeNotification_untouched (completion : NotificationCompletion)
    (hs : w.state = .disconnected) : Untouched w (completeNotification p completion w).2 := by
  rcases completeNotification_cases p completion w with ⟨-, hc⟩ | ⟨b, hb, hc⟩
  · rw [hc]
    exact .refl hs
  · have hrx : Untouched w (w.withRx b) := by
      refine ⟨hs, rfl, rfl, fun hv => ?_⟩
      obtain ⟨hvalid, -, hcap⟩ := hb hv
      exact ⟨(List.append_nil _).symm, hvalid, hcap, rfl⟩
    rw [hc]
    exact hrx.trans (performAction_untouched p completion.action hs)

/-- A closed client asks nothing of the platform until it connects again. -/
theorem perform_untouched {call : Call} (hcall : call.connects = none)
    (hs : w.state = .disconnected) : Untouched w (perform p call w).2 := by
  cases call with
  | connect | connectSubscribe => cases hcall
  | nextNotification =>
    have hd : w.client.isDisconnected = true := isDisconnected_iff.mpr hs
    have hnext : nextNotification p w = (.err .connectionClosed, w) := by
      rw [nextNotification, Act.bind_apply, Act.gets_apply]
      simp only [hd, if_true, Act.fail_apply]
    rw [perform, Act.bind_pure_snd, hnext]
    exact .refl hs
  | completeNotification completion =>
    have hc := completeNotification_untouched p completion hs
    rwa [← @Act.bind_pure_snd _ _ _ _ _ fun _ => Value.unit] at hc
  | send packet =>
    have hsent := (performSend_sent p packet w).untouched p hs
    rwa [← @Act.bind_pure_snd _ _ _ _ _ fun _ => Value.unit] at hsent
  | isDisconnected => exact .refl hs

end Relations

end NanoClient

end Umqtt
