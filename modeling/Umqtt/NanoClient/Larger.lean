/-
Umqtt/NanoClient/Larger.lean

A tx buffer that is large enough may be larger.

A caller sizes the tx buffer for the packets it sends.  If it is large enough
for a run, that is, no call of the run fails to encode a packet, then the same
calls on a client with more room come to the same (`larger_tx_agrees`): the
buffer is a scratch area for one packet, and where a packet starts in it, or
what is behind it, does not matter.  The exception are closures that ask for the
capacity of their writer, or that go on when an add fails.
-/
import Umqtt.NanoClient.Simulation
import Umqtt.NanoClient.Subscription

namespace Umqtt

open Effects Wire

/-! ### Writers with more room -/

theorem BorrowedBuf.follows_addSlice (data : List UInt8) :
    Act.Follows anyFailure Filled.Wider (addSlice data) (addSlice data) := by
  intro b b' h
  by_cases hle : data.length ≤ b.room
  · rw [addSlice_of_le hle, addSlice_of_le (hle.trans h.room)]
    exact .inr ⟨rfl, h.extend hle⟩
  · rw [addSlice_of_lt (Nat.lt_of_not_le hle)]
    exact .inl trivial

theorem TopicWriter.follows_answer {q : TopicQuery} (hq : q ≠ .capacity) :
    Act.Follows anyFailure Filled.Wider (answer q) (answer q) := by
  cases q with
  | addStr string => exact BorrowedBuf.follows_addSlice _
  | len => exact Filled.follows_len
  | capacity => exact absurd rfl hq

theorem PayloadWriter.follows_answer {q : PayloadQuery} (hq : q ≠ .capacity) :
    Act.Follows anyFailure Filled.Wider (answer q) (answer q) := by
  cases q with
  | addU8 byte => exact BorrowedBuf.follows_addSlice _
  | addSlice slice => exact BorrowedBuf.follows_addSlice _
  | addStr string => exact BorrowedBuf.follows_addSlice _
  | len => exact Filled.follows_len
  | capacity => exact absurd rfl hq

namespace SubscribeWriter

theorem follows_addParts (partsLen : Nat) (separator : String) :
    ∀ (parts : List String) (i : Nat), Act.Follows anyFailure Filled.Wider
      (addParts partsLen separator parts i) (addParts partsLen separator parts i) := by
  intro parts
  induction parts with
  | nil => exact fun _ => (Act.Agrees.pure ()).follows
  | cons part parts ih =>
    intro i
    refine (BorrowedBuf.follows_addSlice _).bind fun _ => .bind ?_ fun _ => ih (i + 1)
    exact .ite (BorrowedBuf.follows_addSlice _) (Act.Agrees.pure ()).follows

theorem follows_answer (q : SubscribeQuery) :
    Act.Follows anyFailure Filled.Wider (answer q) (answer q) := by
  cases q with
  | addStr topic qos =>
    refine .ite (Act.Agrees.fail _).follows ((BorrowedBuf.follows_addSlice _).bind fun _ => ?_)
    exact (BorrowedBuf.follows_addSlice _).bind fun _ => BorrowedBuf.follows_addSlice _
  | addSeparated parts separator qos =>
    refine Filled.follows_len.bind fun start => ?_
    refine (BorrowedBuf.follows_addSlice _).bind fun _ => ?_
    refine (follows_addParts _ _ _ _).bind fun _ => Filled.follows_len.bind fun len => ?_
    refine .ite (Act.Agrees.fail _).follows ?_
    refine (Filled.follows_patch trivial start _).bind fun _ => ?_
    exact (Filled.follows_patch trivial (start + 1) _).bind fun _ => BorrowedBuf.follows_addSlice _

end SubscribeWriter

/-! ### PUBLISH -/

namespace OutPublish

variable {topic : TopicFn} {payload : PayloadFn}

theorem follows_writeTopic (htopic : topic.Passes (· ≠ .capacity)) :
    Act.Follows anyFailure Filled.Wider (writeTopic topic) (writeTopic topic) := by
  refine Filled.follows_len.bind fun i => ?_
  refine (BorrowedBuf.follows_addSlice _).bind fun _ => Filled.follows_len.bind fun before => ?_
  refine (htopic.follows fun _ => TopicWriter.follows_answer).bind fun _ => ?_
  refine Filled.follows_len.bind fun len => .ite (Act.Agrees.fail _).follows ?_
  exact Filled.follows_patchSlice trivial i _

theorem follows_writeVarHeaderAndPayload (self : OutPublish)
    (htopic : topic.Passes (· ≠ .capacity)) (hpayload : payload.Passes (· ≠ .capacity)) :
    Act.Follows anyFailure Filled.Wider (self.writeVarHeaderAndPayload topic payload)
      (self.writeVarHeaderAndPayload topic payload) := by
  refine (follows_writeTopic htopic).bind fun _ => .bind ?_ fun _ => ?_
  · exact .ite (.ite (Act.Agrees.fail _).follows (BorrowedBuf.follows_addSlice _))
      (Act.Agrees.pure ()).follows
  · exact (hpayload.follows fun _ => PayloadWriter.follows_answer).bind fun _ => Filled.follows_len

/-- The packet starts elsewhere in a larger buffer, if its header is short, but it
is the same packet. -/
theorem follows_write (self : OutPublish) (htopic : topic.Passes (· ≠ .capacity))
    (hpayload : payload.Passes (· ≠ .capacity)) :
    Act.Follows anyFailure (fun buf buf' => buf.length ≤ buf'.length) (self.write topic payload)
      (self.write topic payload) := by
  intro buf buf' h
  by_cases h5 : 5 ≤ buf.length
  swap
  · rw [self.write_of_lt topic payload (Nat.lt_of_not_le h5)]
    exact .inl trivial
  have hwider : (Filled.empty (buf.drop 5)).Wider (Filled.empty (buf'.drop 5)) := by
    refine Filled.wider_empty ?_
    rw [List.length_drop, List.length_drop]
    exact Nat.sub_le_sub_right h 5
  rcases self.writeVarHeaderAndPayload_cases topic payload (Filled.empty (buf.drop 5)) with
    ⟨hfit, hx⟩ | ⟨e, w, hx, hc⟩
  swap
  · obtain ⟨b, hb, -⟩ := self.write_of_err h5 hx hc
    rw [hb]
    exact .inl trivial
  -- both have written the same body
  rcases self.follows_writeVarHeaderAndPayload htopic hpayload _ _ hwider with
    hexcused | ⟨hout, hsame⟩
  · rw [hx] at hexcused
    exact hexcused.elim
  rw [hx] at hout hsame
  rcases self.writeVarHeaderAndPayload_cases topic payload (Filled.empty (buf'.drop 5)) with
    ⟨hfit', hx'⟩ | ⟨e, w, hx', -⟩
  swap
  · rw [hx'] at hout
    cases hout
  rw [hx'] at hsame
  have hbody := hsame.written
  rw [Filled.written_extend hfit, Filled.written_extend hfit'] at hbody
  replace hbody := List.append_cancel_left hbody
  rw [← hbody] at hfit' hx'
  generalize self.body topic payload (Filled.empty (buf.drop 5)) = body at hfit hfit' hx hx'
  change _ = (Outcome.ok (0 + body.length), _) at hx
  change _ = (Outcome.ok (0 + body.length), _) at hx'
  change body.length ≤ (buf.drop 5).length - 0 at hfit
  change body.length ≤ (buf'.drop 5).length - 0 at hfit'
  rw [List.length_drop] at hfit hfit'
  rw [Nat.zero_add] at hx hx'
  obtain ⟨b, hb, hlen⟩ := self.write_of_ok (by omega) hx
  obtain ⟨b', hb', hlen'⟩ := self.write_of_ok (by omega) hx'
  rw [hb, hb']
  exact .inr ⟨rfl, hlen.trans_le (h.trans_eq hlen'.symm)⟩

end OutPublish

namespace NanoClient

section Larger

variable {σ E α : Type}

/-- The same client, with a tx buffer that is as large or larger. -/
abbrev Larger : World σ E → World σ E → Prop := OtherTx fun tx tx' => tx.length ≤ tx'.length

/-- A packet could not be encoded. -/
def Unencoded : Option (Error E) → Prop
  | some (.writeError _) | none => True
  | some _ => False

variable (p : Platform σ E)

/-! ### Sending -/

variable {w : World σ E}

/-- What is written does not depend on what is behind it in the tx buffer. -/
theorem larger_writeBuffer (buf : List UInt8) {b b' : List UInt8} (h : b.length ≤ b'.length) :
    (writeBuffer p buf (w.withTx b)).1.Excused Unencoded ∨
      (writeBuffer p buf (w.withTx b)).1 = (writeBuffer p buf (w.withTx b')).1 ∧
        Larger (writeBuffer p buf (w.withTx b)).2 (writeBuffer p buf (w.withTx b')).2 :=
  follows_writeBuffer (simulates_otherTx p) buf _ _ (.withTx (w := w.withTx b) h)

theorem length_overwrite_le {tx tx' bs : List UInt8} (hle : bs.length ≤ tx.length)
    (h : tx.length ≤ tx'.length) : (overwrite tx 0 bs).length ≤ (overwrite tx' 0 bs).length := by
  rw [length_overwrite ((Nat.zero_add _).trans_le hle),
    length_overwrite ((Nat.zero_add _).trans_le (hle.trans h))]
  exact h

theorem larger_sendPacket {write : Act (List UInt8) WriteError Nat} {bs : List UInt8}
    (hw : Writes WriteError.notEnoughCapacity write bs) :
    Act.Follows Unencoded Larger (sendPacket p write) (sendPacket p write) := by
  rintro w _ ⟨h⟩
  by_cases hle : bs.length ≤ w.client.txBuffer.length
  · rw [sendPacket_of_le p hw hle, sendPacket_of_le p hw (hle.trans h)]
    exact larger_writeBuffer p bs (length_overwrite_le hle h)
  · obtain ⟨b, hb, -⟩ := (hw w.client.txBuffer).2 (Nat.lt_of_not_le hle)
    rw [sendPacket, Act.bind_of_err (onTx_apply hb)]
    exact .inl trivial

theorem larger_writeConnect (options : ConnectOptions) : Act.Follows Unencoded Larger
    (onTx (options.asConnect.write.mapErr .writeError) >>= writeAll p)
    (onTx (options.asConnect.write.mapErr .writeError) >>= writeAll p) := by
  by_cases hlen : options.asConnect.len ≤ 268435455
  · exact larger_sendPacket p (Connect.writes hlen)
  · intro w u _
    obtain ⟨e, b, hb, -⟩ := @Connect.write_of_not_fits _ w.client.txBuffer fun h => hlen h.1
    rw [Act.bind_of_err (onTx_apply hb)]
    exact .inl trivial

theorem larger_sendPublish (out : OutPublish) {topic : TopicFn} {payload : PayloadFn}
    (htopic : topic.Passes (· ≠ .capacity)) (hpayload : payload.Passes (· ≠ .capacity)) :
    Act.Follows Unencoded Larger (sendPublish p out topic payload)
      (sendPublish p out topic payload) := by
  refine .bind ?_ fun packet => follows_writeBuffer (simulates_otherTx p) packet
  refine ((out.follows_write htopic hpayload).mapErr (fun _ _ => trivial) fun _ => trivial).zoom
    ?_ ?_
  · rintro w _ ⟨h⟩
    exact h
  · rintro w _ b b' ⟨-⟩ h
    exact .withTx (w := w.withTx b) h

theorem larger_writeSubscribe {subscriptions : SubscribeFn}
    (hpasses : subscriptions.Passes fun _ => True) :
    Act.Follows Unencoded Larger (writeSubscribe p subscriptions)
      (writeSubscribe p subscriptions) := by
  rintro w _ ⟨h⟩
  rename_i tx
  have hrun := hpasses.follows (fun q _ => SubscribeWriter.follows_answer q) _ _
    (Filled.wider_empty h)
  rcases hs : subscriptions.run SubscribeWriter.answer (Filled.empty w.client.txBuffer) with
    ⟨⟨⟩ | e | _, b⟩
  · rcases ht : subscriptions.run SubscribeWriter.answer (Filled.empty tx) with ⟨r, b'⟩
    rw [hs, ht] at hrun
    obtain hexcused | ⟨rfl, hwider⟩ := hrun
    · exact hexcused.elim
    rw [writeSubscribe_of_run hs, @writeSubscribe_of_run _ _ p _ (w.withTx tx) _ ht, ← hwider.len,
      ← hwider.written]
    split
    · exact ((follows_writeBuffer (simulates_otherTx p) _).bind fun _ =>
        follows_writeBuffer (simulates_otherTx p) _) _ _
          (.withTx (w := w.withTx b.buffer) hwider.capacity)
    · exact .inl trivial
  · rw [writeSubscribe_of_err hs]
    exact .inl trivial
  · obtain ⟨-, -, hpanic⟩ :=
      SubscribeWriter.run_grows subscriptions (Filled.empty w.client.txBuffer)
    exact absurd (congrArg Prod.fst hs) hpanic

/-! ### Sessions -/

/-- The closures of a send pass every error on, and do not ask for the capacity. -/
def Send.Forwards : Send → Prop
  | .publish _ topic payload | .publishQos0 topic payload | .publishQos1 _ topic payload =>
      topic.Passes (· ≠ .capacity) ∧ payload.Passes (· ≠ .capacity)
  | .pingRequest | .pubAck _ | .pubRec _ | .pubComp _ => True

/-- The closures of a call pass every error on, and do not ask for the capacity. -/
def Call.Forwards : Call → Prop
  | .send packet => packet.Forwards
  | .connectSubscribe _ subscriptions => subscriptions.Passes fun _ => True
  | .connect _ | .nextNotification | .completeNotification _ | .isDisconnected => True

theorem larger_performSend {packet : Send} (h : packet.Forwards) :
    Act.Follows Unencoded Larger (performSend p packet) (performSend p packet) := by
  cases packet with
  | pingRequest => exact larger_sendPacket p (writes_writeEmpty _)
  | pubAck | pubRec | pubComp => exact larger_sendPacket p (writes_writeAck _ _)
  | publish | publishQos0 | publishQos1 => exact larger_sendPublish p _ h.1 h.2

theorem larger_perform {call : Call} (h : call.Forwards) :
    Act.Follows Unencoded Larger (perform p call) (perform p call) := by
  refine follows_perform (simulates_otherTx p) (larger_writeConnect p) ?_ ?_
  · rintro options subscriptions rfl
    exact larger_writeSubscribe p h
  · intro packet hpacket
    refine larger_performSend p ?_
    -- a completion sends no PUBLISH
    rcases call with _ | _ | _ | ⟨_, _ | _ | _ | _ | _⟩ | _ | _ <;> cases hpacket
    · trivial
    · trivial
    · trivial
    · trivial
    · exact h

/-- A run in which no call fails to encode a packet, and the same user with a client
that has a larger tx buffer.  The closures pass every error on and do not ask
for the capacity.  All calls return the same, they make the same calls of the
platform, which write the same bytes, and leave the same client but for the tx
buffer. -/
theorem larger_tx_agrees {w : World σ E} {tx : List UInt8}
    (htx : w.client.txBuffer.length ≤ tx.length)
    (user : Dialogue Call (fun _ => Value) (Error E) α)
    (hasked : ∀ x ∈ user.asked (perform p) w, x.1.Forwards ∧ ∀ e, x.2 ≠ .error (.writeError e))
    (hrun : (user.run (perform p) w).1 ≠ .panic) :
    let run := user.run (perform p) w
    let run' := user.run (perform p) (w.withTx tx)
    run.1 = run'.1 ∧ user.asked (perform p) w = user.asked (perform p) (w.withTx tx) ∧
      run.2.log = run'.2.log ∧ run.2.platform = run'.2.platform ∧
      run.2.client.transportClient = run'.2.client.transportClient ∧
      run.2.client.rxBuffer = run'.2.client.rxBuffer := by
  intro run run'
  have hexcused : ∀ x ∈ user.asked (perform p) w,
      x.1.Forwards ∧ ∀ e, x.2 = .error e → ¬Unencoded (some e) := by
    intro x hx
    obtain ⟨hforwards, hno⟩ := hasked x hx
    refine ⟨hforwards, fun e he => ?_⟩
    cases e with
    | writeError e => exact absurd he (hno e)
    | connectionClosed | unexpectedPacket | io | readError => exact id
  obtain ⟨hsame, hout, hrelated⟩ := user.follows (fun _ => larger_perform p) w (w.withTx tx)
    (.withTx htx) hexcused hrun
  obtain ⟨htransport, hrx, hplatform, hlog⟩ := hrelated.same
  exact ⟨hout, hsame, hlog, hplatform, htransport, hrx⟩

end Larger

/-- A client with 24 bytes, which subscribes and sends a publish, and one with 64. -/
theorem larger_tx_agrees_publish :
    let p := streamPlatform 64
    let options : ConnectOptions := ⟨"client", none, none, 10, true⟩
    let subscribe : Call := .connectSubscribe options (.all [.addStr "a" .atMostOnce])
    let publish : Call := .send (.publishQos1 7 (.all [.addStr "a/", .addStr "b"]) (.all []))
    let user : Dialogue Call (fun _ => Value) (Error Unit) Unit :=
      .ask subscribe fun _ => .ask publish fun _ => .done (.ok ())
    let w : World (List UInt8) Unit :=
      ⟨new (List.replicate 24 0) (List.replicate 16 0), [0x20, 2, 0, 0], []⟩
    (user.run (perform p) w).2.log =
      (user.run (perform p) (w.withTx (List.replicate 64 0xFF))).2.log := by
  intro p options subscribe publish user w
  obtain ⟨w₁, w₂, hsubscribe, hpublish⟩ : ∃ w₁ w₂,
      perform p subscribe w = (.ok (.connAck ⟨false, .success⟩), w₁) ∧
        perform p publish w₁ = (.ok .unit, w₂) :=
    ⟨(perform p subscribe w).2, (perform p publish (perform p subscribe w).2).2,
      Prod.ext (by decide +kernel) rfl, Prod.ext (by decide +kernel) rfl⟩
  have hasked : user.asked (perform p) w =
      [⟨subscribe, .ok (.connAck ⟨false, .success⟩)⟩, ⟨publish, .ok .unit⟩] := by
    simp only [user, Dialogue.asked, hsubscribe, hpublish]
  have hforwards : subscribe.Forwards ∧ publish.Forwards := by
    refine ⟨Dialogue.passes_all fun _ _ => trivial, Dialogue.passes_all ?_, .done _⟩
    rintro _ (_ | ⟨_, _ | ⟨_, ⟨⟩⟩⟩) <;> rintro ⟨⟩
  refine (larger_tx_agrees p (show (List.replicate 24 (0 : UInt8)).length ≤
    (List.replicate 64 (0xFF : UInt8)).length by decide) user ?_ (by decide +kernel)).2.2.1
  rw [hasked]
  refine List.forall_mem_cons.mpr ⟨⟨hforwards.1, ?_⟩,
    List.forall_mem_singleton.mpr ⟨hforwards.2, ?_⟩⟩
  · rintro e ⟨⟩
  · rintro e ⟨⟩

end NanoClient

end Umqtt
