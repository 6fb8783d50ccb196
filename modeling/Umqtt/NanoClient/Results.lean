/-
Umqtt/NanoClient/Results.lean

A caller knows from the results of its calls whether the client is closed.

An operation that fails, and not because a packet could not be encoded, leaves a
closed client; in every other case the client is as open as it was, or open if
the call connects (`Candid`).  So the results of a run, replayed one after the
other, come to what `is_disconnected` says (`results_tell`).  The one result that
is no error and closes the client is the notification that it is disconnected.
-/
import Umqtt.NanoClient.Bounded
import Umqtt.NanoClient.Outbound

namespace Umqtt

open Effects Wire

namespace NanoClient

section Results

variable {σ E α β : Type} {p : Platform σ E} {w t w' : World σ E}

/-! ### Operations that connect nothing -/

/-- The state is kept by an operation that returns, or fails to encode a packet;
any other error leaves a closed client. -/
inductive Candid (w : World σ E) : Outcome (Error E) α → World σ E → Prop where
  | panicked {w' : World σ E} : Candid w .panic w'
  | returned {a : α} {w' : World σ E} : w'.state = w.state → Candid w (.ok a) w'
  | unsent {e : WriteError} {w' : World σ E} : w'.state = w.state →
      Candid w (.err (.writeError e)) w'
  | closed {e : Error E} {w' : World σ E} : (∀ x, e ≠ .writeError x) →
      w'.state = .disconnected → Candid w (.err e) w'

theorem Candid.behind {r : Outcome (Error E) α} (hs : t.state = w.state) (h : Candid t r w') :
    Candid w r w' := by
  cases h with
  | panicked => exact .panicked
  | returned h => exact .returned (h.trans hs)
  | unsent h => exact .unsent (h.trans hs)
  | closed hne h => exact .closed hne h

/-- An operation that is candid wherever it begins. -/
def IsCandid (x : Act (World σ E) (Error E) α) : Prop := ∀ w, Candid w (x w).1 (x w).2

theorem IsCandid.bind {x : Act (World σ E) (Error E) α} {f : α → Act (World σ E) (Error E) β}
    (hx : IsCandid x) (hf : ∀ a, IsCandid (f a)) : IsCandid (x >>= f) := by
  intro w
  have h := hx w
  rw [Act.bind_apply]
  rcases hrun : x w with ⟨r, t⟩
  rw [hrun] at h
  cases h with
  | panicked => exact .panicked
  | returned hs => exact (hf _ t).behind hs
  | unsent hs => exact .unsent hs
  | closed hne hs => exact .closed hne hs

theorem isCandid_pure (a : α) : IsCandid (pure a : Act (World σ E) (Error E) α) :=
  fun _ => .returned rfl

theorem isCandid_ite {c : Prop} [Decidable c] {x y : Act (World σ E) (Error E) α}
    (hx : IsCandid x) (hy : IsCandid y) : IsCandid (if c then x else y) := by
  split
  · exact hx
  · exact hy

theorem isCandid_gets (f : World σ E → α) : IsCandid (Act.gets f) := fun _ => .returned rfl

/-- An encoder fails with an error of its own. -/
theorem isCandid_onTx (write : Act (List UInt8) WriteError α) :
    IsCandid (onTx (write.mapErr .writeError) : Act (World σ E) (Error E) α) := by
  intro w
  rcases hrun : write w.client.txBuffer with ⟨r, b⟩
  rw [onTx_apply hrun]
  cases r with
  | ok a => exact .returned rfl
  | err e => exact .unsent rfl
  | panic => exact .panicked

theorem isCandid_lift {r : Outcome (Error E) α} (h : ∀ e, r = .err e → ∃ x, e = .writeError x) :
    IsCandid (Act.lift r : Act (World σ E) (Error E) α) := by
  intro w
  cases r with
  | ok a => exact .returned rfl
  | err e =>
    obtain ⟨x, rfl⟩ := h e rfl
    exact .unsent rfl
  | panic => exact .panicked

theorem isCandid_onRx {x : Act Buffer (Error E) α} (h : ∀ b e, (x b).1 ≠ .err e) :
    IsCandid (onRx x : Act (World σ E) (Error E) α) := by
  intro w
  rw [onRx, Act.zoom_apply]
  rcases hrun : x w.client.rxBuffer with ⟨r, b⟩
  cases r with
  | ok a => exact .returned rfl
  | err e => exact absurd (congrArg Prod.fst hrun) (h _ e)
  | panic => exact .panicked

variable (p)

theorem isCandid_writeBuffer (buf : List UInt8) : IsCandid (writeBuffer p buf) := by
  intro w
  have h := bufferWritten p buf w
  generalize (writeBuffer p buf w).1 = r at h ⊢
  generalize (writeBuffer p buf w).2 = w' at h ⊢
  cases h with
  | closed hs => exact .closed nofun hs
  | sent => exact .returned (World.state_packetSent _ _)
  | broken => exact .closed nofun rfl

theorem isCandid_writeAll (size : Nat) : IsCandid (writeAll p size) := by
  refine (isCandid_gets _).bind fun txBuffer => .bind ?_ fun buf => isCandid_writeBuffer p buf
  refine isCandid_lift fun e h => ?_
  unfold slice at h
  split at h <;> cases h

theorem isCandid_performSend (packet : Send) : IsCandid (performSend p packet) := by
  cases packet with
  | pingRequest | pubAck | pubRec | pubComp =>
    exact (isCandid_onTx _).bind fun _ => isCandid_writeAll p _
  | publish | publishQos0 | publishQos1 =>
    exact (isCandid_onTx _).bind fun _ => isCandid_writeBuffer p _

theorem isCandid_completeNotification (completion : NotificationCompletion) :
    IsCandid (completeNotification p completion) := by
  have hremove : ∀ (len : Nat) (b : Buffer) (e : Error E),
      (Buffer.removePrefix len b).1 ≠ .err e := by
    intro len b e h
    unfold Buffer.removePrefix at h
    split at h
    · cases h
    · split at h <;> cases h
  obtain ⟨taken, action⟩ := completion
  refine (isCandid_ite (isCandid_onRx (hremove taken)) (isCandid_pure ())).bind fun _ => ?_
  cases action with
  | none => exact isCandid_pure ()
  | pingReq => exact isCandid_performSend p .pingRequest
  | pubAck packetId => exact isCandid_performSend p (.pubAck packetId)
  | pubRec packetId => exact isCandid_performSend p (.pubRec packetId)
  | pubComp packetId => exact isCandid_performSend p (.pubComp packetId)

theorem isCandid_writeSubscribe (subscriptions : SubscribeFn) :
    IsCandid (writeSubscribe p subscriptions) := by
  refine (isCandid_onTx _).bind fun payloadLen => .bind ?_ fun header =>
    (isCandid_writeBuffer p header).bind fun _ => isCandid_writeAll p payloadLen
  refine isCandid_lift fun e h => ?_
  generalize (subscribeHeader payloadLen [0, 0, 0, 0, 0, 0, 0]).1 = r at h
  cases r with
  | ok | panic => cases h
  | err x => exact ⟨x, (Outcome.err.inj h).symm⟩

/-! ### What a result says -/

/-- Whether the client is open behind a call, by what it was and what the call
returned. -/
def stillOpen (was : Bool) (call : Call) : Except (Error E) Value → Bool
  | .ok (.notification (.transportNotification n)) => n.notification ≠ .disconnected
  | .ok _ => call.connects.isSome || was
  | .error (.writeError _) => call.connects.isSome || was
  | .error _ => false

/-- Whether the client is open behind some calls, by what they returned. -/
def replay (was : Bool) (record : List ((_ : Call) × Except (Error E) Value)) : Bool :=
  record.foldl (fun was entry => stillOpen was entry.1 entry.2) was

def World.isOpen (w : World σ E) : Bool := !w.client.isDisconnected

theorem isOpen_iff : w.isOpen = true ↔ w.state ≠ .disconnected := by
  rw [World.isOpen, Bool.not_eq_true', ← Bool.not_eq_true, isDisconnected_iff]
  exact Iff.rfl

theorem isOpen_eq_false_iff : w.isOpen = false ↔ w.state = .disconnected := by
  rw [← Bool.not_eq_true, isOpen_iff, not_not]

theorem isOpen_congr (h : w'.state = w.state) : w'.isOpen = w.isOpen := by
  rw [Bool.eq_iff_iff, isOpen_iff, isOpen_iff, h]

theorem stillOpen_error_of_ne {e : Error E} (h : ∀ x, e ≠ .writeError x) (was : Bool)
    (call : Call) : stillOpen was call (.error e) = false := by
  cases e with
  | writeError x => exact absurd rfl (h x)
  | connectionClosed | unexpectedPacket | io | readError => rfl

/-- A call behind which the client is as open as it was, unless an error closed it. -/
theorem Candid.isOpen_of_err {call : Call} {e : Error E}
    (h : Candid w (.err e : Outcome (Error E) α) w')
    (hwas : (call.connects.isSome || w.isOpen) = w.isOpen) :
    w'.isOpen = stillOpen w.isOpen call (.error e) := by
  cases h with
  | unsent hs => exact (isOpen_congr hs).trans hwas.symm
  | closed hne hs => rw [stillOpen_error_of_ne hne, isOpen_eq_false_iff.mpr hs]

theorem Candid.state_of_ok {a : α} (h : Candid w (.ok a : Outcome (Error E) α) w') :
    w'.state = w.state := by
  cases h
  assumption

/-! ### Connecting -/

theorem isCandid_behindConnect (call : Call) (ack : ConnAck) :
    IsCandid (behindConnect p call ack) := by
  cases call with
  | connectSubscribe options subscriptions =>
    refine IsCandid.bind ?_ fun _ => isCandid_pure _
    exact isCandid_ite (isCandid_writeSubscribe p subscriptions) (isCandid_pure ())
  | connect | nextNotification | completeNotification | send | isDisconnected =>
    exact isCandid_pure _

theorem behindConnect_eq_ok {call : Call} {ack : ConnAck} {v : Value}
    (h : behindConnect p call ack w = (.ok v, w')) : v = .connAck ack := by
  cases call with
  | connectSubscribe options subscriptions =>
    obtain ⟨⟨⟩, t, -, ht⟩ := Act.bind_eq_ok.mp h
    cases ht
    rfl
  | connect | nextNotification | completeNotification | send | isDisconnected =>
    cases h
    rfl

variable {p} {call : Call} {options : ConnectOptions}

/-- A handshake that succeeded leaves an open client. -/
theorem connects_of_ok (hc : call.connects = some options) {v : Value}
    (h : perform p call w = (.ok v, w')) :
    w'.isOpen = stillOpen w.isOpen call (.ok v : Except (Error E) Value) := by
  rw [perform_of_connects p hc] at h
  obtain ⟨ack, w₁, hconnect, h⟩ := Act.bind_eq_ok.mp h
  obtain ⟨got, chunk, n, ha⟩ := accepted_of_ok p hconnect
  have hcandid := isCandid_behindConnect p call ack w₁
  rw [h] at hcandid
  obtain rfl := behindConnect_eq_ok p h
  show _ = (call.connects.isSome || w.isOpen)
  rw [hc, isOpen_congr hcandid.state_of_ok, isOpen_iff.mpr (by rw [ha.state]; decide)]
  rfl

/-- A handshake that failed leaves an open client only if a packet could not be
encoded. -/
theorem connects_of_err (hc : call.connects = some options) {e : Error E}
    (h : perform p call w = (.err e, w')) :
    w'.isOpen = stillOpen w.isOpen call (.error e) := by
  rw [perform_of_connects p hc] at h
  rcases Act.bind_eq_err.mp h with hconnect | ⟨ack, w₁, hconnect, h⟩
  · by_cases hfits : options.asConnect.Fits w.client.txBuffer.length
    · have hne : ∀ x, e ≠ .writeError x := by
        rintro x rfl
        exact connect_ne_writeError p hfits x (congrArg Prod.fst hconnect)
      rw [stillOpen_error_of_ne hne,
        isOpen_eq_false_iff.mpr (state_of_connect_err p hfits hconnect)]
    · obtain ⟨x, t, hx, hs⟩ := connect_of_not_fits p hfits
      cases hconnect.symm.trans hx
      rw [stillOpen, hc, isOpen_iff.mpr (by rw [hs]; decide)]
      rfl
  · obtain ⟨got, chunk, n, ha⟩ := accepted_of_ok p hconnect
    have hopen : w₁.isOpen = true := isOpen_iff.mpr (by rw [ha.state]; decide)
    have hcandid := isCandid_behindConnect p call ack w₁
    rw [h] at hcandid
    cases hcandid with
    | unsent hs =>
      rw [stillOpen, hc, isOpen_congr hs, hopen]
      rfl
    | closed hne hs => rw [stillOpen_error_of_ne hne, isOpen_eq_false_iff.mpr hs]

/-! ### Calls for a notification -/

/-- What the transport client says to the received bytes decides whether it is open
behind them. -/
theorem received_isOpen {c : TransportClient} {data : List UInt8} (hs : c.state ≠ .disconnected)
    (hf : ∀ k, Packet.read data c.maxPacketSize ≠ .err (.needMoreData k)) :
    let client := (TransportClient.onBytesReceived data c).2
    (∀ n, notify (TransportClient.onBytesReceived data c).1 =
        (.ok n : Outcome (Error E) ClientNotification) →
      (client.state ≠ .disconnected ↔
        ∀ taken, n ≠ .transportNotification { notification := .disconnected, taken })) ∧
      ∀ e, notify (TransportClient.onBytesReceived data c).1 =
        (.err e : Outcome (Error E) ClientNotification) →
      (∀ x, e ≠ .writeError x) ∧ client.state = .disconnected := by
  have hr := TransportClient.received c data
  generalize (TransportClient.onBytesReceived data c).1 = r at hr ⊢
  generalize (TransportClient.onBytesReceived data c).2 = client at hr ⊢
  cases hr with
  | closed h => exact absurd h hs
  | needMore _ hread => exact absurd hread (hf _)
  | malformed | unexpected =>
    refine ⟨nofun, ?_⟩
    rintro e ⟨⟩
    exact ⟨nofun, rfl⟩
  | accepted =>
    refine ⟨?_, nofun⟩
    rintro n ⟨⟩
    exact ⟨fun _ _ => nofun, fun _ => nofun⟩
  | refused =>
    refine ⟨?_, nofun⟩
    rintro n ⟨⟩
    exact ⟨fun h => absurd rfl h, fun h => absurd rfl (h _)⟩
  | @packet q taken m _ _ hq =>
    refine ⟨?_, nofun⟩
    rintro n ⟨⟩
    refine ⟨fun _ taken h => ?_, fun _ => hs⟩
    cases h
    cases q <;> cases hq

theorem nextNotification_isOpen (hv : w.Valid) :
    (∀ n w', nextNotification p w = (.ok n, w') → w'.isOpen = stillOpen w.isOpen .nextNotification
      (.ok (.notification n) : Except (Error E) Value)) ∧
    ∀ e w', nextNotification p w = (.err e, w') →
      w'.isOpen = stillOpen w.isOpen .nextNotification (.error e) := by
  have h := notified p hv
  rcases hrun : nextNotification p w with ⟨r, t⟩
  rw [hrun] at h
  -- the world behind the call, if the call is the one that ran
  suffices hboth : (∀ n, r = .ok n → t.isOpen = stillOpen w.isOpen .nextNotification
        (.ok (.notification n) : Except (Error E) Value)) ∧
      ∀ e, r = .err e → t.isOpen = stillOpen w.isOpen .nextNotification (.error e) by
    refine ⟨?_, ?_⟩
    · rintro n _ ⟨⟩
      exact hboth.1 n rfl
    · rintro e _ ⟨⟩
      exact hboth.2 e rfl
  cases h with
  | panicked => exact ⟨nofun, nofun⟩
  | closed hs =>
    refine ⟨nofun, ?_⟩
    rintro e ⟨⟩
    exact isOpen_eq_false_iff.mpr hs
  | broke _ hb he =>
    refine ⟨nofun, ?_⟩
    rintro e ⟨⟩
    rw [isOpen_eq_false_iff.mpr hb.state, stillOpen_error_of_ne]
    rintro x rfl
    rcases he with h | ⟨y, h⟩ <;> cases h
  | ping _ hg _ hg' =>
    refine ⟨?_, nofun⟩
    rintro n ⟨⟩
    exact isOpen_congr ((hg.trans hg').state)
  | @decoded evs evs' u u' hne hg _ hc hf =>
    have hall := hg.trans hc.gathered
    have hopen : u'.client.transportClient.state ≠ .disconnected := by
      rw [hall.transportClient]
      exact hne
    obtain ⟨fh, hcheck⟩ := hf
    obtain ⟨hok, herr⟩ := @received_isOpen E _ u'.content hopen fun k =>
      Packet.read_ne_needMoreData hcheck _ k
    refine ⟨fun n hn => ?_, fun e he => ?_⟩
    · rw [Bool.eq_iff_iff, isOpen_iff]
      refine (hok n hn).trans ?_
      cases n with
      | sendPing => exact absurd hn (notify_ne_sendPing _)
      | transportNotification n =>
        simp only [stillOpen, decide_eq_true_eq]
        constructor
        · rintro h hdisconnected
          exact h n.taken (by rw [← hdisconnected])
        · rintro h taken ⟨⟩
          exact h rfl
    · obtain ⟨hne, hs⟩ := herr e he
      rw [stillOpen_error_of_ne hne]
      exact isOpen_eq_false_iff.mpr hs

/-! ### Runs -/

theorem perform_isOpen_of_ok (hv : w.Valid) {v : Value} (h : perform p call w = (.ok v, w')) :
    w'.isOpen = stillOpen w.isOpen call (.ok v : Except (Error E) Value) := by
  cases hc : call.connects with
  | some options => exact connects_of_ok hc h
  | none =>
    cases call with
    | connect | connectSubscribe => cases hc
    | nextNotification =>
      obtain ⟨n, t, hnext, ht⟩ := Act.bind_eq_ok.mp h
      cases ht
      exact (nextNotification_isOpen hv).1 _ _ hnext
    | completeNotification completion =>
      obtain ⟨⟨⟩, t, hrun, ht⟩ := Act.bind_eq_ok.mp h
      cases ht
      have hcandid := isCandid_completeNotification p completion w
      rw [hrun] at hcandid
      exact isOpen_congr hcandid.state_of_ok
    | send packet =>
      obtain ⟨⟨⟩, t, hrun, ht⟩ := Act.bind_eq_ok.mp h
      cases ht
      have hcandid := isCandid_performSend p packet w
      rw [hrun] at hcandid
      exact isOpen_congr hcandid.state_of_ok
    | isDisconnected =>
      cases h
      rfl

theorem perform_isOpen_of_err (hv : w.Valid) {e : Error E}
    (h : perform p call w = (.err e, w')) :
    w'.isOpen = stillOpen w.isOpen call (.error e) := by
  cases hc : call.connects with
  | some options => exact connects_of_err hc h
  | none =>
    cases call with
    | connect | connectSubscribe => cases hc
    | nextNotification =>
      rcases Act.bind_eq_err.mp h with hnext | ⟨n, t, -, ht⟩
      · exact (nextNotification_isOpen hv).2 _ _ hnext
      · cases ht
    | completeNotification completion =>
      rcases Act.bind_eq_err.mp h with hrun | ⟨n, t, -, ht⟩
      · have hcandid := isCandid_completeNotification p completion w
        rw [hrun] at hcandid
        exact hcandid.isOpen_of_err rfl
      · cases ht
    | send packet =>
      rcases Act.bind_eq_err.mp h with hrun | ⟨n, t, -, ht⟩
      · have hcandid := isCandid_performSend p packet w
        rw [hrun] at hcandid
        exact hcandid.isOpen_of_err rfl
      · cases ht
    | isDisconnected => cases h

theorem perform_valid (hv : w.Valid) {r : Outcome (Error E) Value} (h : perform p call w = (r, w'))
    (hr : r ≠ .panic) : w'.Valid := by
  have hhanded := perform_handed p call hv
  rw [h] at hhanded
  obtain ⟨evs, hevs, -⟩ := hhanded hr
  exact hevs.valid

/-- A user's calls, replayed from what the client was. -/
theorem replay_isOpen (user : Dialogue Call (fun _ => Value) (Error E) α) : ∀ {w : World σ E},
    w.Valid → (user.run (perform p) w).1 ≠ .panic →
    (user.run (perform p) w).2.isOpen = replay w.isOpen (user.asked (perform p) w) := by
  induction user with
  | done r =>
    intro w _ _
    cases r <;> rfl
  | ask call next ih =>
    intro w hv hr
    rcases hperform : perform p call w with ⟨v | e | _, t⟩ <;>
      simp only [Dialogue.run, Dialogue.asked, hperform] at hr ⊢
    · rw [ih (.ok v) (perform_valid hv hperform (Outcome.ok_ne_panic _)) hr,
        perform_isOpen_of_ok hv hperform]
      rfl
    · rw [ih (.error e) (perform_valid hv hperform (Outcome.err_ne_panic _)) hr,
        perform_isOpen_of_err hv hperform]
      rfl
    · exact absurd rfl hr

/-- The results that a user gets say whether the client is closed, whatever calls
they are of and however the user chose them: it is closed at first; a call that
connects opens it, unless it fails otherwise than by an encoder; any other call
leaves it alone, unless it fails otherwise than by an encoder, or returns the
notification that the client is disconnected. -/
theorem results_tell (p : Platform σ E) (txBuffer rxBuffer : List UInt8) (s : σ)
    (user : Dialogue Call (fun _ => Value) (Error E) α)
    (hrun : (user.run (perform p) ⟨new txBuffer rxBuffer, s, []⟩).1 ≠ .panic) :
    (user.run (perform p) ⟨new txBuffer rxBuffer, s, []⟩).2.client.isDisconnected =
      !replay false (user.asked (perform p) ⟨new txBuffer rxBuffer, s, []⟩) := by
  have hopen := replay_isOpen user (Nat.zero_le _) hrun
  rw [World.isOpen] at hopen
  exact (Bool.not_eq_eq_eq_not.mp hopen)

/-- A stream that ends behind the CONNACK. -/
theorem results_tell_closed :
    let user : Dialogue Call (fun _ => Value) (Error Unit) Unit :=
      .ask (.connect ⟨"client", none, none, 0, true⟩) fun _ => .ask (.send .pingRequest) fun _ =>
        .ask .nextNotification fun _ => .ask (.send .pingRequest) fun _ => .done (.ok ())
    (user.run (perform (endingPlatform 4)) ⟨new (List.replicate 32 0) (List.replicate 16 0),
      [0x20, 2, 0, 0], []⟩).2.client.isDisconnected = true := by
  intro user
  rw [results_tell (endingPlatform 4) _ _ _ user (by decide +kernel)]
  decide +kernel

end Results

end NanoClient

end Umqtt
