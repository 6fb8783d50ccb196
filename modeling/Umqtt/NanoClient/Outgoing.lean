/-
Umqtt/NanoClient/Outgoing.lean

What a peer makes of the outbound stream.

A peer that reads packets off the bytes the client writes finds the packets of
the calls that returned, each once and in the order of the calls, and nothing
else (`outgoing_packets`).  For this the caller has to see to little: a closure
that adds filters passes its errors on, a login is not empty, and a PUBLISH with
quality of service 0 comes without a packet id.  That all strings are short
enough for their length prefixes follows from the size of the tx buffer.
-/
import Mathlib.Data.List.Forall2
import Umqtt.FieldLengths
import Umqtt.InPlace
import Umqtt.NanoClient.Outbound
import Umqtt.NanoClient.Sizes

namespace Umqtt

open Effects Wire

/-! ### Bytes that are read as a packet -/

namespace Packet

/-- A reader takes these bytes whole, whatever follows them, and finds this packet. -/
def ReadsAs (bytes : List UInt8) (packet : Packet) : Prop :=
  ∃ q, Same packet q ∧ ∀ s max, bytes.length ≤ max →
    read (bytes ++ s) max = .ok (q, bytes.length)

/-- The packets that a reader finds in a stream, with nothing left over. -/
def Tells (max : Nat) (data : List UInt8) (packets : List Packet) : Prop :=
  ∃ items, Reads (next max) data items [] ∧ List.Forall₂ Same packets (items.map Prod.snd)

variable {max : Nat} {data data' : List UInt8} {packets packets' : List Packet}

theorem Tells.nil : Tells max [] [] := ⟨[], .nil _, .nil⟩

theorem Tells.append (h : Tells max data packets) (h' : Tells max data' packets') :
    Tells max (data ++ data') (packets ++ packets') := by
  obtain ⟨items, hreads, hsame⟩ := h
  obtain ⟨items', hreads', hsame'⟩ := h'
  refine ⟨items ++ items', (hreads.append (prefixed_next max) data').trans hreads', ?_⟩
  rw [List.map_append]
  exact List.rel_append hsame hsame'

theorem ReadsAs.tells {packet : Packet} (h : ReadsAs data packet) (hmax : data.length ≤ max) :
    Tells max data [packet] := by
  obtain ⟨q, hsame, hread⟩ := h
  have hnext : next max data = some (q, data.length) := by
    have hread := hread [] max hmax
    rw [List.append_nil] at hread
    exact next_eq_some.mpr hread
  have hrest : Reads (next max) (data.drop data.length) [] [] := by
    rw [List.drop_length]
    exact .nil []
  exact ⟨_, .cons hnext hrest, .cons hsame .nil⟩

/-- What the writer of a readable packet writes. -/
theorem readsAs_of_writes {p : Packet} (h : p.Readable) {n : Nat} (hlen : p.len = .ok n)
    (hn : n ≤ 268435455) (hw : Writes WriteError.notEnoughCapacity p.write data) :
    ReadsAs data p := by
  obtain ⟨byte1, body, q, hf⟩ := exists_framed h hlen hn
  obtain rfl : body.length = n := Outcome.ok.inj (hf.len.symm.trans hlen)
  obtain rfl := hw.unique hf.writes
  refine ⟨q, hf.same, fun s max hmax => read_frame hn ?_ hf.read⟩
  have hlong : (frame byte1 body).length = 1 + (base128 body.length).length + body.length := by
    simp only [frame, List.length_cons, List.length_append]
    omega
  omega

end Packet

/-! ### Packets from a short buffer -/

theorem length_frame_le (byte1 : UInt8) {body : List UInt8} (h : body.length ≤ 268435455) :
    (frame byte1 body).length ≤ body.length + 5 := by
  have hbase : (base128 body.length).length ≤ 4 := length_base128_le (k := 3) (by omega)
  simp only [frame, List.length_cons, List.length_append]
  omega

/-- What the writer of a packet writes is as long as its body, and the fields that
stand behind a length are within. -/
theorem Packet.Framing.of_writes {p : Packet} {len : Nat} {bytes : List UInt8}
    (h : p.Framing len) (hw : Writes WriteError.notEnoughCapacity p.write bytes) :
    len ≤ 268435455 ∧ p.Numbered ∧ ∀ f ∈ p.prefixed, f.length ≤ bytes.length := by
  have hok : (p.write bytes).1 = .ok bytes.length := by rw [(hw bytes).1 (Nat.le_refl _)]
  by_cases hnot : p.Numbered ∧ len ≤ 268435455
  · obtain ⟨byte1, body, hframe, -, hwithin⟩ := h.frames hnot.1 hnot.2
    obtain rfl := hw.unique hframe
    refine ⟨hnot.2, hnot.1, fun f hf => ?_⟩
    have hle := (hwithin f hf).length_le
    simp only [lenPrefixed, frame, List.length_append, List.length_cons] at hle ⊢
    omega
  · obtain ⟨e, he⟩ := h.refuses hnot bytes
    cases he.symm.trans hok

theorem Publish.readsAs {publish : Publish} {bytes : List UInt8}
    (hpkid : publish.qos = .atMostOnce → publish.pkid = 0)
    (hw : Writes WriteError.notEnoughCapacity publish.write bytes) (hb : bytes.length ≤ 65535) :
    Packet.ReadsAs bytes (.publish publish) := by
  obtain ⟨hlen, hid, hshort⟩ := (Packet.framing_publish publish).of_writes hw
  refine Packet.readsAs_of_writes ⟨?_, fun h0 => ?_, hpkid⟩ rfl hlen hw
  · exact (hshort _ (List.mem_singleton_self _)).trans hb
  · by_contra hq
    exact hid hq h0

theorem Connect.readsAs {connect : Connect} {bytes : List UInt8}
    (hprotocol : connect.protocol = .v4)
    (hlogin : ∀ l ∈ connect.login, ¬(l.username = "" ∧ l.password = []))
    (hw : Writes WriteError.notEnoughCapacity connect.write bytes) (hb : bytes.length ≤ 65535) :
    Packet.ReadsAs bytes (.connect connect) := by
  obtain ⟨hlen, -, hshort⟩ := (Packet.framing_connect connect).of_writes hw
  have hall : ∀ f ∈ (Packet.connect connect).prefixed, f.length ≤ 65535 :=
    fun f hf => (hshort f hf).trans hb
  obtain ⟨hid, hrest⟩ := List.forall_mem_cons.mp hall
  obtain ⟨hwill, hcred⟩ := List.forall_mem_append.mp hrest
  refine Packet.readsAs_of_writes ⟨hprotocol, hid, fun w hw => ?_, fun l hl => ?_⟩ rfl hlen hw
  · rw [Option.mem_def.mp hw] at hwill
    obtain ⟨htopic, hmessage⟩ := List.forall_mem_cons.mp hwill
    exact ⟨htopic, hmessage _ (List.mem_singleton_self _)⟩
  · rw [Option.mem_def.mp hl] at hcred
    obtain ⟨husername, hpassword⟩ := List.forall_mem_append.mp hcred
    refine ⟨?_, ?_, hlogin l hl⟩
    · by_cases h : (asBytes l.username).isEmpty
      · rw [List.isEmpty_iff.mp h]
        exact Nat.zero_le _
      · exact husername _ (by simp [h])
    · by_cases h : l.password.isEmpty
      · rw [List.isEmpty_iff.mp h]
        exact Nat.zero_le _
      · exact hpassword _ (by simp [h])

theorem Subscribe.readsAs {subscribe : Subscribe} {filters : List SubscribeFilter}
    {bytes : List UInt8} (hiter : subscribe.filters.iter BytesIterator.next = .ok filters)
    (hne : filters ≠ []) (hall : ∀ f ∈ filters, f.Short)
    (hw : Writes WriteError.notEnoughCapacity subscribe.write bytes) :
    Packet.ReadsAs bytes (.subscribe subscribe) := by
  obtain ⟨len, hframing⟩ := Packet.framing_subscribe subscribe
  obtain ⟨hlen, -⟩ := hframing.of_writes hw
  exact Packet.readsAs_of_writes ⟨filters, hiter, hne, hall⟩ hframing.len_eq hlen hw

namespace NanoClient

section Outgoing

variable {σ E : Type} {max : Nat} {w t w' : World σ E} {heard heard' : List Packet}

/-! ### What a part of a run tells a reader -/

/-- Unless a write failed, the bytes handed over between the two worlds are
read as these packets. -/
def Told (max : Nat) (w : World σ E) (heard : List Packet) (w' : World σ E) : Prop :=
  ∃ evs, w'.log = w.log ++ evs ∧
    ((∀ e ∈ evs, ¬e.WriteFails) → Packet.Tells max (written evs).flatten heard)

/-- Calls of the platform that write nothing. -/
theorem told_of_reads {evs : List (Event E)} (h : w'.log = w.log ++ evs)
    (hevs : ∀ e ∈ evs, ¬e.IsWrite) : Told max w [] w' := by
  refine ⟨evs, h, fun _ => ?_⟩
  rw [written_of_not_isWrite hevs]
  exact .nil

theorem told_of_log (h : w'.log = w.log) : Told max w [] w' :=
  @told_of_reads _ _ _ _ _ [] (h.trans (List.append_nil _).symm) nofun

theorem Told.trans (h : Told max w heard t) (h' : Told max t heard' w') :
    Told max w (heard ++ heard') w' := by
  obtain ⟨evs, hlog, htells⟩ := h
  obtain ⟨evs', hlog', htells'⟩ := h'
  refine ⟨evs ++ evs', by rw [hlog', hlog, List.append_assoc], fun hok => ?_⟩
  obtain ⟨hok, hok'⟩ := List.forall_mem_append.mp hok
  rw [written_append, List.flatten_append]
  exact (htells hok).append (htells' hok')

/-- A write failed between the two worlds. -/
def Failed (w w' : World σ E) : Prop :=
  ∃ evs, w'.log = w.log ++ evs ∧ ∃ e ∈ evs, e.WriteFails

theorem Failed.told (h : Failed w w') : Told max w heard w' := by
  obtain ⟨evs, hlog, e, he, hfails⟩ := h
  exact ⟨evs, hlog, fun hok => absurd hfails (hok e he)⟩

/-- A `write_buffer` that fails has handed over nothing, or a write failed. -/
theorem BufferWritten.failed {p : Platform σ E} {buf : List UInt8} {e : Error E}
    (h : BufferWritten p buf w (.err e) w') : w.state = .disconnected ∧ w' = w ∨ Failed w w' := by
  cases h with
  | closed hs => exact .inl ⟨hs, rfl⟩
  | @broken e =>
    exact .inr ⟨[.wrote w.state buf (.error e)], rfl, _, List.mem_singleton_self _, trivial⟩

theorem BufferWritten.told_err {p : Platform σ E} {buf : List UInt8} {e : Error E}
    (h : BufferWritten p buf w (.err e) w') : Told max w [] w' := by
  rcases h.failed with ⟨-, rfl⟩ | h
  · exact told_of_log rfl
  · exact h.told

theorem told_of_writeBuffer (p : Platform σ E) {buf : List UInt8} {packet : Packet}
    (h : writeBuffer p buf w = (.ok (), w')) (hbuf : packet.ReadsAs buf) (hmax : buf.length ≤ max) :
    Told max w [packet] w' := by
  obtain ⟨⟨evs, hlog, hevs⟩, -⟩ := writeBuffer_written h
  refine ⟨evs, hlog, fun _ => ?_⟩
  rw [hevs, List.flatten_singleton]
  exact hbuf.tells hmax

/-! ### Packets of the caller's -/

/-- The packet of a send, of which the closures add to the tx buffer `tx`. -/
def Send.packet (tx : List UInt8) : Send → Packet
  | .pingRequest => .pingReq
  | .pubAck packetId => .pubAck ⟨packetId⟩
  | .pubRec packetId => .pubRec ⟨packetId⟩
  | .pubComp packetId => .pubComp ⟨packetId⟩
  | .publish out topic payload => .publish (out.publish topic payload tx)
  | .publishQos0 topic payload =>
      .publish (OutPublish.publish ⟨false, .atMostOnce, false, 0⟩ topic payload tx)
  | .publishQos1 packetId topic payload =>
      .publish (OutPublish.publish ⟨false, .atLeastOnce, false, packetId⟩ topic payload tx)

/-- A PUBLISH with quality of service 0 has no packet id. -/
def Send.Plain : Send → Prop
  | .publish out _ _ => out.qos = .atMostOnce → out.pkid = 0
  | _ => True

variable (p : Platform σ E)

theorem sendPacket_told {write : Act (List UInt8) WriteError Nat} {bs : List UInt8}
    {packet : Packet} (hw : Writes WriteError.notEnoughCapacity write bs)
    (hbs : packet.ReadsAs bs) (hmax : w.client.txBuffer.length ≤ max)
    (h : sendPacket p write w = (.ok (), w')) : Told max w [packet] w' := by
  by_cases hle : bs.length ≤ w.client.txBuffer.length
  · rw [sendPacket_of_le p hw hle] at h
    have htold := told_of_writeBuffer p h hbs (hle.trans hmax)
    exact htold
  · obtain ⟨b, hb, -⟩ := (hw w.client.txBuffer).2 (Nat.lt_of_not_le hle)
    rw [sendPacket, Act.bind_of_err (onTx_apply hb)] at h
    cases h

/-- The bytes that the encoder returned are those of the PUBLISH. -/
theorem sendPublish_told {out : OutPublish} {topic : TopicFn} {payload : PayloadFn}
    (hplain : out.qos = .atMostOnce → out.pkid = 0) (htx : w.client.txBuffer.length ≤ 65535)
    (hmax : w.client.txBuffer.length ≤ max)
    (h : sendPublish p out topic payload w = (.ok (), w')) :
    Told max w [.publish (out.publish topic payload w.client.txBuffer)] w' := by
  by_cases h5 : 5 ≤ w.client.txBuffer.length
  · rcases out.write_cases topic payload h5 with ⟨hbig, hle, b, hb, -⟩ | ⟨e, b, hb, -⟩
    · have hwrites := OutPublish.writes_publish h5 (congrArg Prod.fst hb)
      rw [sendPublish, Act.bind_of_ok (onTx_apply hb)] at h
      have hlen := length_frame_le (Publish.byte1 out.dup out.qos out.retain) hbig
      have htold : Told max (w.withTx b) [.publish _] w' :=
        told_of_writeBuffer p h (Publish.readsAs hplain hwrites (by omega)) (by omega)
      exact htold
    · rw [sendPublish, Act.bind_of_err (onTx_apply hb)] at h
      cases h
  · rw [sendPublish, Act.bind_apply,
      onTx_apply (out.write_of_lt topic payload (Nat.lt_of_not_le h5))] at h
    cases h

/-- A send that returned. -/
theorem performSend_told {packet : Send} (hplain : packet.Plain)
    (htx : w.client.txBuffer.length ≤ 65535) (hmax : w.client.txBuffer.length ≤ max)
    (h : performSend p packet w = (.ok (), w')) :
    Told max w [packet.packet w.client.txBuffer] w' := by
  have hack : ∀ {q : Packet} {byte1 : UInt8} {pkid : UInt16} {write},
      Writes WriteError.notEnoughCapacity write (frame byte1 (toBeBytes pkid)) →
      q.write = write → q.Readable → q.len = .ok 2 → sendPacket p write w = (.ok (), w') →
      Told max w [q] w' := by
    rintro q byte1 pkid _ hw rfl hread hlen h
    exact sendPacket_told p hw (Packet.readsAs_of_writes hread hlen (by decide) hw) hmax h
  cases packet with
  | pingRequest =>
    have hw := writes_writeEmpty 0xC0
    exact sendPacket_told p hw (@Packet.readsAs_of_writes _ .pingReq trivial 0 rfl (by decide) hw)
      hmax h
  | pubAck packetId => exact hack (writes_writeAck 0x40 packetId) rfl trivial rfl h
  | pubRec packetId => exact hack (writes_writeAck 0x50 packetId) rfl trivial rfl h
  | pubComp packetId => exact hack (writes_writeAck 0x70 packetId) rfl trivial rfl h
  | publish out topic payload => exact sendPublish_told p hplain htx hmax h
  | publishQos0 topic payload => exact sendPublish_told p (fun _ => rfl) htx hmax h
  | publishQos1 packetId topic payload => exact sendPublish_told p nofun htx hmax h

/-- A send that failed. -/
theorem performSend_told_err {packet : Send} {e : Error E}
    (h : performSend p packet w = (.err e, w')) : Told max w [] w' := by
  have hsent := performSend_sent p packet w
  rw [h] at hsent
  cases hsent with
  | notEncoded => exact told_of_log rfl
  | encoded _ _ hw => exact hw.told_err

/-! ### Subscribing -/

/-- The SUBSCRIBE of a closure that passes errors on. -/
theorem writeSubscribe_told {adds : List SubscribeQuery} (hne : adds ≠ [])
    (hmax : w.client.txBuffer.length + 7 ≤ max)
    (h : writeSubscribe p (.all adds) w = (.ok (), w')) :
    Told max w [.subscribe (Subscribe.new 1 (adds.map SubscribeQuery.filter))] w' := by
  let b₀ : BorrowedBuf := Filled.empty w.client.txBuffer
  rcases hrun : (.all adds : SubscribeFn).run SubscribeWriter.answer b₀ with ⟨⟨⟩ | e | _, b⟩
  · obtain ⟨hle, evs, hlog, hevs⟩ := writeSubscribe_of_ok h
    have hasked := Dialogue.asked_all hrun
    have hacc : SubscribeWriter.accepted (adds.map (⟨·, .ok ()⟩)) =
        adds.map SubscribeQuery.filter := by
      rw [SubscribeWriter.accepted, List.filterMap_map]
      exact congrFun List.filterMap_eq_map adds
    have hplan := @SubscribeWriter.plan_of_ok (.all adds) b₀ (by
      rw [hasked]
      intro x hx
      obtain ⟨q, -, rfl⟩ := List.mem_map.mp hx
      rfl)
    obtain ⟨-, hshort, hfit, hextend⟩ := SubscribeWriter.run_plan _ hplan
    rw [hasked, hacc] at hshort hfit hextend
    -- what the closure left is the entries of the filters
    have hwritten : (subscribed (.all adds) w).written =
        (adds.map SubscribeQuery.filter).flatMap SubscribeFilter.entry := by
      rw [show subscribed (.all adds) w = _ from hextend, Filled.written_extend hfit]
      rfl
    rw [hwritten] at hle hevs
    refine ⟨evs, hlog, fun _ => ?_⟩
    rw [hevs]
    have hlen := length_frame_le 0x82 hle
    have hroom : b₀.room = w.client.txBuffer.length := rfl
    have hreads := Subscribe.readsAs rfl (mt List.map_eq_nil_iff.mp hne) hshort
      (@Subscribe.writes (Subscribe.new 1 _) _ rfl hle)
    refine hreads.tells ?_
    rw [List.length_append, length_toBeBytes] at hlen
    exact hlen.trans (by omega)
  · rw [writeSubscribe_of_err hrun] at h
    cases h
  · have hne := (SubscribeWriter.run_grows (.all adds) b₀).2.2
    rw [hrun] at hne
    exact absurd rfl hne

theorem writeSubscribe_told_err {subscriptions : SubscribeFn} {e : Error E}
    (h : writeSubscribe p subscriptions w = (.err e, w')) : Told max w [] w' := by
  rcases writeSubscribe_cases p subscriptions w with ⟨b, e', -, hw⟩ | ⟨b, header, payload, -, -, hw⟩
  · cases hw.symm.trans h
    exact told_of_log rfl
  · rw [hw] at h
    have hheader := bufferWritten p header (w.withTx b)
    rcases Act.bind_eq_err.mp h with h | ⟨⟨⟩, t, hfirst, h⟩
    · rw [h] at hheader
      exact hheader.told_err
    · rw [hfirst] at hheader
      have hpayload := bufferWritten p payload t
      rw [h] at hpayload
      cases hheader with
      | @sent s s' now hs =>
        -- the client is still open behind the header
        rcases hpayload.failed with ⟨hclosed, -⟩ | ⟨evs, hlog, e, he, hfails⟩
        · exact absurd ((World.state_packetSent _ _).symm.trans hclosed) hs
        · refine Failed.told ⟨[.wrote w.state header (.ok ()), .clock now] ++ evs, ?_, e,
            List.mem_append_right _ he, hfails⟩
          rw [hlog, ← List.append_assoc]
          exact congrArg (· ++ evs) (List.append_assoc _ _ _)

/-! ### Conversations -/

/-- The packets of a call, of which the closures add to the tx buffer `tx`. -/
def Call.packets (tx : List UInt8) : Call → List Packet
  | .send packet => [packet.packet tx]
  | .completeNotification completion =>
      (packetOf completion.action).toList.map (Send.packet tx)
  | _ => []

/-- A call says its packets if it returns. -/
def Call.said (call : Call) (tx : List UInt8) : Outcome (Error E) Value → List Packet
  | .ok _ => call.packets tx
  | _ => []

def Call.Plain : Call → Prop
  | .send packet => packet.Plain
  | _ => True

/-- The login of a CONNECT has a username or a password. -/
def Named (options : ConnectOptions) : Prop :=
  ∀ l ∈ options.login, ¬(l.username = "" ∧ l.password = [])

/-- A run of calls since a `connect` that returned, with the packets of the calls
that returned. -/
inductive Conversation (w₀ : World σ E) : List Packet → World σ E → Prop where
  | connected {options : ConnectOptions} {ack : ConnAck} {w : World σ E} : Named options →
      connect p options w₀ = (.ok ack, w) → Conversation w₀ [.connect options.asConnect] w
  | subscribed {options : ConnectOptions} {adds : List SubscribeQuery} {ack : ConnAck}
      {w : World σ E} : Named options → adds ≠ [] →
      connectSubscribe p options (.all adds) w₀ = (.ok ack, w) →
      Conversation w₀ [.connect options.asConnect,
        .subscribe (Subscribe.new 1 (adds.map SubscribeQuery.filter))] w
  | unsubscribed {options : ConnectOptions} {subscriptions : SubscribeFn} {ack : ConnAck}
      {e : Error E} {w₁ w : World σ E} : Named options → connect p options w₀ = (.ok ack, w₁) →
      connectSubscribe p options subscriptions w₀ = (.err e, w) →
      Conversation w₀ [.connect options.asConnect] w
  | goes {said : List Packet} {w w' : World σ E} {call : Call} {r : Outcome (Error E) Value} :
      Conversation w₀ said w → call.connects = none → call.Plain →
      perform p call w = (r, w') → r ≠ .panic →
      Conversation w₀ (said ++ call.said w.client.txBuffer r) w'

variable {p} {w₀ : World σ E}

theorem connect_told {options : ConnectOptions} {ack : ConnAck} (hnamed : Named options)
    (htx : w₀.client.txBuffer.length ≤ 65535) (hmax : w₀.client.txBuffer.length ≤ max)
    (h : connect p options w₀ = (.ok ack, w)) :
    Told max w₀ [.connect options.asConnect] w := by
  obtain ⟨got, chunk, n, ha⟩ := accepted_of_ok p h
  refine ⟨_, ha.log, fun _ => ?_⟩
  rw [ha.wrote, List.flatten_singleton]
  have hreads := @Connect.readsAs options.asConnect _ rfl hnamed (Connect.writes ha.fits.1)
    (ha.fits.2.trans htx)
  exact hreads.tells (ha.fits.2.trans hmax)

/-- A call for a notification writes nothing. -/
theorem nextNotification_told (hv : w.Valid) {r : Outcome (Error E) ClientNotification}
    (h : nextNotification p w = (r, w')) (hr : r ≠ .panic) : Told max w [] w' := by
  have hn := notified p hv
  rw [h] at hn
  cases hn with
  | closed => exact told_of_log rfl
  | panicked => exact absurd rfl hr
  | broke _ hb => exact told_of_reads hb.log hb.not_isWrite
  | ping _ hg _ hg' =>
    have ht := hg.trans hg'
    exact told_of_reads ht.log fun e he => (ht.quiet e he).1
  | decoded _ hg _ hc =>
    have ht := hg.trans hc.gathered
    exact told_of_reads ht.log fun e he => (ht.quiet e he).1

/-- Completing a notification writes the packet of its action. -/
theorem completeNotification_told {completion : NotificationCompletion}
    {r : Outcome (Error E) Unit} (htx : w.client.txBuffer.length ≤ 65535)
    (hmax : w.client.txBuffer.length ≤ max) (h : completeNotification p completion w = (r, w'))
    (hr : r ≠ .panic) :
    Told max w (match r with
      | .ok _ => (packetOf completion.action).toList.map (Send.packet w.client.txBuffer)
      | _ => []) w' := by
  rcases completeNotification_cases p completion w with ⟨-, hc⟩ | ⟨b, -, hc⟩
  · cases hc.symm.trans h
    exact absurd rfl hr
  rw [hc, performAction] at h
  cases hpacket : packetOf completion.action with
  | none =>
    rw [hpacket] at h
    cases h
    exact told_of_log rfl
  | some packet =>
    rw [hpacket] at h
    have hplain : packet.Plain := by
      rcases haction : completion.action with - | - | id | id | id <;> rw [haction] at hpacket <;>
        cases hpacket <;> trivial
    cases r with
    | ok =>
      have htold : Told max (w.withRx b) _ w' := performSend_told p hplain htx hmax h
      exact htold
    | err e =>
      have htold : Told max (w.withRx b) _ w' := performSend_told_err p h
      exact htold
    | panic => exact absurd rfl hr

/-- A call behind the `connect`. -/
theorem perform_told {call : Call} {r : Outcome (Error E) Value} (hv : w.Valid)
    (htx : w.client.txBuffer.length ≤ 65535) (hmax : w.client.txBuffer.length ≤ max)
    (hc : call.connects = none) (hplain : call.Plain) (h : perform p call w = (r, w'))
    (hr : r ≠ .panic) : Told max w (call.said w.client.txBuffer r) w' := by
  cases call with
  | connect | connectSubscribe => cases hc
  | nextNotification =>
    have hsaid : Call.said .nextNotification w.client.txBuffer r = [] := by cases r <;> rfl
    rw [hsaid]
    rw [perform, Act.bind_apply] at h
    rcases hrun : nextNotification p w with ⟨r', t⟩
    rw [hrun] at h
    cases r' <;> cases h
    · exact nextNotification_told hv hrun (Outcome.ok_ne_panic _)
    · exact nextNotification_told hv hrun (Outcome.err_ne_panic _)
    · exact absurd rfl hr
  | completeNotification completion =>
    rw [perform, Act.bind_apply] at h
    rcases hrun : completeNotification p completion w with ⟨r', t⟩
    rw [hrun] at h
    cases r' <;> cases h
    · exact completeNotification_told htx hmax hrun (Outcome.ok_ne_panic _)
    · exact completeNotification_told htx hmax hrun (Outcome.err_ne_panic _)
    · exact absurd rfl hr
  | send packet =>
    rw [perform, Act.bind_apply] at h
    rcases hrun : performSend p packet w with ⟨r', t⟩
    rw [hrun] at h
    cases r' <;> cases h
    · exact performSend_told p hplain htx hmax hrun
    · exact performSend_told_err p hrun
    · exact absurd rfl hr
  | isDisconnected =>
    cases h
    exact told_of_log rfl

/-- A whole run. -/
theorem Conversation.told {said : List Packet} (h : Conversation p w₀ said w)
    (htx : w₀.client.txBuffer.length ≤ 65535) (hmax : w₀.client.txBuffer.length + 7 ≤ max) :
    Told max w₀ said w ∧ w.Valid ∧ SameSizes w₀ w := by
  have hshort : w₀.client.txBuffer.length ≤ max := by omega
  induction h with
  | @connected options ack w hnamed hc =>
    obtain ⟨got, chunk, n, ha⟩ := accepted_of_ok p hc
    refine ⟨connect_told hnamed htx hshort hc, ha.valid, ?_⟩
    have hsizes := keepsSizes_connect p options w₀
    rwa [hc] at hsizes
  | @subscribed options adds ack w hnamed hne hc =>
    have hsizes := keepsSizes_connectSubscribe p options (.all adds) w₀
    rw [hc] at hsizes
    obtain ⟨ack', w₁, hconnect, h⟩ := Act.bind_eq_ok.mp hc
    obtain ⟨⟨⟩, u, hwrite, h⟩ := Act.bind_eq_ok.mp h
    cases h
    obtain ⟨got, chunk, n, ha⟩ := accepted_of_ok p hconnect
    rw [if_pos ((ConnectReturnCode.isSuccess_iff _).mpr ha.success)] at hwrite
    have hhanded := writeSubscribe_handed p (.all adds) ha.valid
    rw [hwrite] at hhanded
    obtain ⟨evs, hevs, -⟩ := hhanded (Outcome.ok_ne_panic _)
    refine ⟨(connect_told hnamed htx hshort hconnect).trans ?_, hevs.valid, hsizes⟩
    exact writeSubscribe_told p hne (by rw [ha.txLength]; exact hmax) hwrite
  | @unsubscribed options subscriptions ack e w₁ w hnamed hconnect hc =>
    have hsizes := keepsSizes_connectSubscribe p options subscriptions w₀
    rw [hc] at hsizes
    obtain ⟨got, chunk, n, ha⟩ := accepted_of_ok p hconnect
    rw [connectSubscribe, Act.bind_of_ok hconnect,
      if_pos ((ConnectReturnCode.isSuccess_iff _).mpr ha.success)] at hc
    rcases Act.bind_eq_err.mp hc with hwrite | ⟨⟨⟩, u, -, hpure⟩
    · have hhanded := writeSubscribe_handed p subscriptions ha.valid
      rw [hwrite] at hhanded
      obtain ⟨evs, hevs, -⟩ := hhanded (Outcome.err_ne_panic _)
      refine ⟨?_, hevs.valid, hsizes⟩
      exact (connect_told hnamed htx hshort hconnect).trans (writeSubscribe_told_err p hwrite)
    · cases hpure
  | @goes said w w' call r _ hc hplain hperform hr ih =>
    obtain ⟨htold, hv, hsizes⟩ := ih
    have hlen := hsizes.txLength
    have hhanded := perform_handed p call hv
    rw [hperform] at hhanded
    obtain ⟨evs, hevs, -⟩ := hhanded hr
    have hkeeps := keepsSizes_perform p call w
    rw [hperform] at hkeeps
    refine ⟨htold.trans ?_, hevs.valid, hsizes.trans _ _ _ hkeeps⟩
    exact perform_told hv (by omega) (by omega) hc hplain hperform hr

/-- What a peer reads in a run of calls since a `connect` that returned, as long as
no write fails: the packets of the calls that returned, in their order, with
nothing between them or behind them. -/
theorem outgoing_packets {said : List Packet} (h : Conversation p w₀ said w)
    (htx : w₀.client.txBuffer.length ≤ 65535) (hmax : w₀.client.txBuffer.length + 7 ≤ max) :
    ∃ evs, w.log = w₀.log ++ evs ∧ ((∀ e ∈ evs, ¬e.WriteFails) →
      ∃ items, Reads (Packet.next max) (written evs).flatten items [] ∧
        List.Forall₂ Packet.Same said (items.map Prod.snd)) :=
  (h.told htx hmax).1

/-- A SUBSCRIBE, a PUBLISH whose topic comes in two parts, and a ping. -/
theorem outgoing_packets_publish :
    let p := streamPlatform 64
    let options : ConnectOptions := ⟨"client", none, none, 10, true⟩
    let topic : TopicFn := .all [.addStr "a/", .addStr "b"]
    let payload : PayloadFn := .all []
    let w₀ : World (List UInt8) Unit :=
      ⟨new (List.replicate 32 0) (List.replicate 16 0), [0x20, 2, 0, 0], []⟩
    let w₁ := (connectSubscribe p options (.all [.addStr "a" .atMostOnce]) w₀).2
    let w₂ := (perform p (.send (.publishQos1 7 topic payload)) w₁).2
    let w₃ := (perform p (.send .pingRequest) w₂).2
    ∃ items, Reads (Packet.next 39) (written w₃.log).flatten items [] ∧
      List.Forall₂ Packet.Same [.connect options.asConnect,
        .subscribe (Subscribe.new 1 [⟨"a", .atMostOnce⟩]),
        .publish ⟨false, .atLeastOnce, false, "a/b", 7, []⟩, .pingReq] (items.map Prod.snd) := by
  intro p options topic payload w₀ w₁ w₂ w₃
  have hsubscribed : Conversation p w₀ _ w₁ :=
    @Conversation.subscribed _ _ p _ options [.addStr "a" .atMostOnce] ⟨false, .success⟩ w₁ nofun
      nofun (Prod.ext (by decide +kernel) rfl)
  have hpublished : Conversation p w₀ _ w₂ :=
    @Conversation.goes _ _ p _ _ _ _ (.send (.publishQos1 7 topic payload)) (.ok .unit)
      hsubscribed rfl trivial (Prod.ext (by decide +kernel) rfl) nofun
  have hpinged : Conversation p w₀ _ w₃ :=
    @Conversation.goes _ _ p _ _ _ _ (.send .pingRequest) (.ok .unit) hpublished rfl trivial
      (Prod.ext (by decide +kernel) rfl) nofun
  obtain ⟨evs, hlog, htells⟩ := outgoing_packets hpinged (by decide) (Nat.le_refl 39)
  obtain rfl : w₃.log = evs := hlog
  have hpublish : OutPublish.publish ⟨false, .atLeastOnce, false, 7⟩ topic payload
      w₁.client.txBuffer = ⟨false, .atLeastOnce, false, "a/b", 7, []⟩ := by decide +kernel
  rw [Call.said, Call.packets, Send.packet, hpublish] at htells
  exact htells (by decide +kernel)

end Outgoing

end NanoClient

end Umqtt
