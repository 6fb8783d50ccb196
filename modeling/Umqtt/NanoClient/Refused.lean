/-
Umqtt/NanoClient/Refused.lean

A packet that is not encoded leaves no trace.

An encoder that returns an error may have written anything into the tx buffer,
and that is all it has done.  What is in the tx buffer between two calls makes
no difference to any later call (`scratch_perform`).  So the sends that their
encoders refused may be left out of a run (`refused_invisible`): the other calls
return the same, and ask the same of the platform.  A completion whose packet
was refused has taken its notification out of the receive buffer all the same;
it may be replaced by a completion without an action.
-/
import Umqtt.Lib.Replay
import Umqtt.NanoClient.Simulation
import Umqtt.NanoClient.Isolation

namespace Umqtt

open Effects Wire

namespace NanoClient

/-- Tx buffers of one size, which agree in the `n` bytes that are about to be
written. -/
def SameFront (n : Nat) (tx tx' : List UInt8) : Prop :=
  tx.length = tx'.length ∧ tx.take n = tx'.take n

section Scratch

variable {σ E α : Type}

/-- The same client, with other bytes in its tx buffer behind the first `n`. -/
abbrev Scratch (n : Nat) : World σ E → World σ E → Prop := OtherTx (SameFront n)

theorem Scratch.forget {n : Nat} {w u : World σ E} (h : Scratch n w u) : Scratch 0 w u := by
  obtain ⟨h⟩ := h
  exact .withTx ⟨h.1, rfl⟩

/-! ### What is in the tx buffer makes no difference -/

variable (p : Platform σ E)

theorem scratch_writeBuffer (n : Nat) (buf : List UInt8) :
    Act.Agrees (Scratch n) (writeBuffer p buf) (writeBuffer p buf) :=
  (follows_writeBuffer (simulates_otherTx p) buf).agrees

theorem scratch_writeAll (n : Nat) : Act.Agrees (Scratch n) (writeAll p n) (writeAll p n) := by
  rintro w _ ⟨h⟩
  rename_i tx
  by_cases hn : n ≤ w.client.txBuffer.length
  · rw [writeAll_of_le p hn, @writeAll_of_le _ _ p (w.withTx tx) n (hn.trans_eq h.1), h.2]
    exact scratch_writeBuffer p n _ _ _ (.withTx h)
  · rw [writeAll_of_not_le p hn,
      @writeAll_of_not_le _ _ p (w.withTx tx) n fun hle => hn (hle.trans_eq h.1.symm)]
    exact ⟨rfl, .withTx h⟩

/-- An encoder, and what follows it, which may use as much of the tx buffer as
the encoder has written. -/
theorem scratch_encoded {write : Act (List UInt8) WriteError Nat} (hwrite : Blind write)
    {f : Nat → Act (World σ E) (Error E) α} (hf : ∀ m, Act.Agrees (Scratch m) (f m) (f m)) :
    Act.Agrees (Scratch 0) (onTx (write.mapErr .writeError) >>= f)
      (onTx (write.mapErr .writeError) >>= f) := by
  rintro w _ ⟨h⟩
  rename_i tx
  obtain ⟨hout, hlen, hfront⟩ := hwrite _ _ h.1
  rcases hw : write w.client.txBuffer with ⟨r, b⟩
  rcases hw' : write tx with ⟨r', b'⟩
  rw [hw, hw'] at hout hlen hfront
  obtain rfl : r = r' := hout
  have hw' : (onTx (write.mapErr .writeError) : Act (World σ E) (Error E) Nat) (w.withTx tx) =
      (r.mapErr .writeError, (w.withTx tx).withTx b') := onTx_apply hw'
  cases r with
  | ok m =>
    rw [Act.bind_of_ok (onTx_apply hw), Act.bind_of_ok hw']
    obtain ⟨hres, hafter⟩ := hf m _ _ (.withTx (w := w.withTx b) ⟨hlen, hfront m rfl⟩)
    exact ⟨hres, hafter.forget⟩
  | err e =>
    rw [Act.bind_of_err (onTx_apply hw), Act.bind_of_err hw']
    exact ⟨rfl, .withTx (w := w.withTx b) ⟨hlen, rfl⟩⟩
  | panic =>
    rw [Act.bind_apply, Act.bind_apply, onTx_apply hw, hw']
    exact ⟨rfl, .withTx (w := w.withTx b) ⟨hlen, rfl⟩⟩

theorem scratch_sendPublish (out : OutPublish) (topic : TopicFn) (payload : PayloadFn) :
    Act.Agrees (Scratch 0) (sendPublish p out topic payload) (sendPublish p out topic payload) := by
  refine .bind ?_ fun packet => scratch_writeBuffer p 0 packet
  refine ((out.agrees_write topic payload).mapErr _).zoom ?_ ?_
  · rintro w _ ⟨h⟩
    exact h.1
  · rintro w _ b b' ⟨-⟩ hlen
    exact .withTx (w := w.withTx b) ⟨hlen, rfl⟩

theorem scratch_performSend (packet : Send) :
    Act.Agrees (Scratch 0) (performSend p packet) (performSend p packet) := by
  cases packet with
  | pingRequest => exact scratch_encoded (writes_writeEmpty _).blind (scratch_writeAll p)
  | pubAck | pubRec | pubComp =>
    exact scratch_encoded (writes_writeAck _ _).blind (scratch_writeAll p)
  | publish | publishQos0 | publishQos1 => exact scratch_sendPublish p _ _ _

theorem scratch_writeSubscribe (subscriptions : SubscribeFn) :
    Act.Agrees (Scratch 0) (writeSubscribe p subscriptions) (writeSubscribe p subscriptions) := by
  refine scratch_encoded (SubscribeWriter.blind_payload subscriptions) fun payloadLen => ?_
  exact (Act.Agrees.lift _).bind fun header => (scratch_writeBuffer p payloadLen header).bind
    fun _ => scratch_writeAll p payloadLen

/-- What is in the tx buffer between two calls makes no difference. -/
theorem scratch_perform (call : Call) :
    Act.Agrees (Scratch 0) (perform p call) (perform p call) := by
  refine (follows_perform (simulates_otherTx p) (fun options => ?_) ?_ ?_).agrees
  · exact (scratch_encoded options.asConnect.blind_write (scratch_writeAll p)).follows
  · exact fun _ subscriptions _ => (scratch_writeSubscribe p subscriptions).follows
  · exact fun packet _ => (scratch_performSend p packet).follows

/-! ### Calls that an encoder refuses -/

variable {p} {w u w' : World σ E} {e : WriteError}

/-- A send that is not encoded leaves other bytes in the tx buffer. -/
theorem Scratch.performSend_refused {packet : Send} (h : Scratch 0 w u)
    (hsend : performSend p packet w = (.err (.writeError e), w')) : Scratch 0 w' u := by
  have hsent := performSend_sent p packet w
  rw [hsend] at hsent
  obtain ⟨h⟩ := h
  rename_i tx
  cases hsent with
  | @notEncoded _ b _ hb => exact .withTx (w := w.withTx b) ⟨hb.trans h.1, rfl⟩
  | encoded _ _ hw => cases hw

/-- The completed notification is taken out of the receive buffer. -/
def release (taken : Nat) : Act (World σ E) (Error E) Unit :=
  if taken > 0 then onRx (Buffer.removePrefix taken) else pure ()

theorem completeNotification_release (p : Platform σ E) (completion : NotificationCompletion) :
    completeNotification p completion =
      release completion.taken >>= fun _ => performAction p completion.action := by
  rcases completion with ⟨_, _ | _ | _ | _ | _⟩ <;> rfl

theorem release_ne_err (taken : Nat) (w w' : World σ E) (e : Error E) :
    release taken w ≠ (.err e, w') := by
  rw [release]
  split
  · rw [onRx, Act.zoom_apply, Buffer.removePrefix]
    split
    · rintro ⟨⟩
    · split <;> rintro ⟨⟩
  · rintro ⟨⟩

/-- A completion whose packet is not encoded has done what one without an action
does. -/
theorem Scratch.completeNotification_refused {completion : NotificationCompletion}
    (h : Scratch 0 w u)
    (hcomplete : completeNotification p completion w = (.err (.writeError e), w')) :
    ∃ u', completeNotification p { completion with action := .none } u = (.ok (), u') ∧
      Scratch 0 w' u' := by
  rw [completeNotification_release] at hcomplete ⊢
  rcases Act.bind_eq_err.mp hcomplete with herr | ⟨⟨⟩, t, hrelease, haction⟩
  · exact absurd herr (release_ne_err _ _ _ _)
  have hfollows : Act.Agrees (Scratch 0) (release completion.taken : Act (World σ E) _ _)
      (release completion.taken) :=
    .ite (follows_onRx (simulates_otherTx p) _).agrees (.pure ())
  obtain ⟨hout, ht⟩ := hfollows w u h
  rw [hrelease] at hout ht
  refine ⟨(release completion.taken u).2, Act.bind_of_ok (Prod.ext hout.symm rfl), ?_⟩
  rw [performAction] at haction
  cases hpacket : packetOf completion.action with
  | none =>
    rw [hpacket] at haction
    cases haction
  | some packet =>
    rw [hpacket] at haction
    exact ht.performSend_refused haction

/-! ### Runs without them -/

/-- What a call with this result amounts to.  A send that its encoder refused
amounts to nothing, and a completion to one without an action. -/
def amounts : (_ : Call) × Except (Error E) Value → Option ((_ : Call) × Except (Error E) Value)
  | ⟨.send _, .error (.writeError _)⟩ => none
  | ⟨.completeNotification completion, .error (.writeError _)⟩ =>
      some ⟨.completeNotification { completion with action := .none }, .ok .unit⟩
  | answer => some answer

open Dialogue in
/-- A call has the effect of what it amounts to. -/
theorem Scratch.answers_amounts {x : (_ : Call) × Except (Error E) Value} (h : Scratch 0 w u)
    (hx : Answers (perform p) x w w') :
    amounts x = none ∧ Scratch 0 w' u ∨
      ∃ y u', amounts x = some y ∧ Answers (perform p) y u u' ∧ Scratch 0 w' u' := by
  have hsame : ∃ u', Answers (perform p) x u u' ∧ Scratch 0 w' u' := by
    obtain ⟨hout, hafter⟩ := scratch_perform p x.1 w u h
    rw [show perform p x.1 w = _ from hx] at hout hafter
    exact ⟨(perform p x.1 u).2, Prod.ext hout.symm rfl, hafter⟩
  unfold amounts
  split
  · rcases Act.bind_eq_err.mp hx with hsend | ⟨_, _, _, hpure⟩
    · exact .inl ⟨rfl, h.performSend_refused hsend⟩
    · cases hpure
  · rcases Act.bind_eq_err.mp hx with hcomplete | ⟨_, _, _, hpure⟩
    · obtain ⟨u', hu', hafter⟩ := h.completeNotification_refused hcomplete
      exact .inr ⟨_, u', rfl, Act.bind_of_ok hu', hafter⟩
    · cases hpure
  · obtain ⟨u', hu', hafter⟩ := hsame
    exact .inr ⟨_, u', rfl, hu', hafter⟩

/-- Any run of any user, and a script of what its calls amount to: without the
sends that their encoders refused, and with completions without an action for
those of which the packet was refused.  From the same client, the calls of the
script have the same results, the same is asked of the platform, which ends in
the same state, and both leave the same client, but for the bytes in its tx
buffer. -/
theorem refused_invisible (p : Platform σ E) (w : World σ E)
    (user : Dialogue Call (fun _ => Value) (Error E) α)
    (hrun : (user.run (perform p) w).1 ≠ .panic) :
    let run := user.run (perform p) w
    let record := (user.asked (perform p) w).filterMap amounts
    let again : Dialogue Call (fun _ => Value) (Error E) Unit := .script (record.map Sigma.fst)
    let run' := again.run (perform p) w
    again.asked (perform p) w = record ∧ run.2.log = run'.2.log ∧
      run.2.platform = run'.2.platform ∧
      run.2.client.transportClient = run'.2.client.transportClient ∧
      run.2.client.rxBuffer = run'.2.client.rxBuffer := by
  intro run record again run'
  have hstart : Scratch 0 w w := .withTx (w := w) ⟨rfl, rfl⟩
  obtain ⟨hasked, hrelated⟩ := Dialogue.replays (fun x s s' t h hx => h.answers_amounts hx) user w w
    hstart hrun
  obtain ⟨htransport, hrx, hplatform, hlog⟩ := hrelated.same
  exact ⟨hasked, hlog, hplatform, htransport, hrx⟩

end Scratch

/-- A client sends a publish that is too large, and a ping. -/
theorem refused_invisible_publish :
    let p := streamPlatform 64
    let connect : Call := .connect ⟨"client", none, none, 10, true⟩
    let publish : Call :=
      .send (.publishQos0 (.all [.addStr "a"]) (.all [.addSlice (List.replicate 40 7)]))
    let ping : Call := .send .pingRequest
    let user : Dialogue Call (fun _ => Value) (Error Unit) Unit :=
      .ask connect fun _ => .ask publish fun _ => .ask ping fun _ => .done (.ok ())
    let again : Dialogue Call (fun _ => Value) (Error Unit) Unit := .script [connect, ping]
    let w : World (List UInt8) Unit :=
      ⟨new (List.replicate 32 0) (List.replicate 16 0), [0x20, 2, 0, 0], []⟩
    (user.run (perform p) w).2.log = (again.run (perform p) w).2.log := by
  intro p connect publish ping user again w
  obtain ⟨w₁, w₂, w₃, hconnect, hpublish, hping⟩ : ∃ w₁ w₂ w₃,
      perform p connect w = (.ok (.connAck ⟨false, .success⟩), w₁) ∧
        perform p publish w₁ = (.err (.writeError .notEnoughCapacity), w₂) ∧
          perform p ping w₂ = (.ok .unit, w₃) :=
    ⟨(perform p connect w).2, (perform p publish (perform p connect w).2).2,
      (perform p ping (perform p publish (perform p connect w).2).2).2,
      Prod.ext (by decide +kernel) rfl, Prod.ext (by decide +kernel) rfl,
      Prod.ext (by decide +kernel) rfl⟩
  have hrecord : (user.asked (perform p) w).filterMap amounts =
      [⟨connect, .ok (.connAck ⟨false, .success⟩)⟩, ⟨ping, .ok .unit⟩] := by
    simp only [user, Dialogue.asked, hconnect, hpublish, hping]
    rfl
  have hlog := (refused_invisible p w user (by decide +kernel)).2.1
  rw [hrecord] at hlog
  exact hlog

end NanoClient

end Umqtt
