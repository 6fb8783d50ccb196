/-
Umqtt/NanoClient/Outbound.lean

The outbound stream is always at the end of a packet.

Every operation hands whole packets to the platform, or stops at a write that
failed (`Outbound`, and `Handed` for an operation with its outcome).  The
SUBSCRIBE of `connect_subscribe` goes out in two writes, which make one packet
together.  All encoders come before the first write, so that a call that fails
to encode its packet leaves no trace of it (`Unsent`).

An `Epoch` is a run of calls from a new client, with the world in which its last
call that connects began.  Since a closed client writes nothing, the calls of an
epoch taken together do what one of them does (`Outbound.perform`).
-/
import Umqtt.Lib.Stream
import Umqtt.NanoClient.Subscription

namespace Umqtt

open Effects Wire

namespace NanoClient

/-! ### Streams of frames -/

/-- The frame at the start of a stream. -/
def nextFrame (max : Nat) (data : List UInt8) : Option (FixedHeader × Nat) :=
  match (do
    let fixedHeader ← check data max
    let frameLength ← fixedHeader.frameLength
    pure (fixedHeader, frameLength) : Outcome Umqtt.Error (FixedHeader × Nat)) with
  | .ok x => some x
  | _ => none

/-- The stream is a concatenation of frames, for every limit that no remaining
length exceeds. -/
def WholeFrames (data : List UInt8) : Prop :=
  ∀ max, 268435455 ≤ max → ∃ frames, Reads (nextFrame max) data frames []

theorem nextFrame_eq_some {max n : Nat} {data : List UInt8} {fh : FixedHeader} :
    nextFrame max data = some (fh, n) ↔
      check data max = .ok fh ∧ (fh.frameLength : Outcome Umqtt.Error Nat) = .ok n := by
  unfold nextFrame
  rcases check data max with fh' | e | _
  · rw [Outcome.ok_bind]
    rcases hlen : (fh'.frameLength : Outcome Umqtt.Error Nat) with m | e | _
    · simp only [Outcome.ok_bind, Outcome.pure_eq, Option.some.injEq, Prod.mk.injEq,
        Outcome.ok.injEq]
      constructor
      · rintro ⟨rfl, rfl⟩
        exact ⟨rfl, hlen⟩
      · rintro ⟨rfl, h⟩
        exact ⟨rfl, Outcome.ok.inj (hlen.symm.trans h)⟩
    all_goals
      refine ⟨nofun, ?_⟩
      rintro ⟨h, hn⟩
      obtain rfl := Outcome.ok.inj h
      cases hlen.symm.trans hn
  · exact ⟨nofun, fun h => by cases h.1⟩
  · exact ⟨nofun, fun h => by cases h.1⟩

theorem prefixed_nextFrame (max : Nat) : Prefixed (nextFrame max) where
  taken h := by
    obtain ⟨hcheck, hlen⟩ := nextFrame_eq_some.mp h
    obtain ⟨lenBytes, body, rest, hw, rfl, hbody, -⟩ := check_eq_ok.mp hcheck
    obtain rfl := Outcome.ok.inj (hw.frameLength_eq.symm.trans hlen)
    have hheader := hw.fixedHeaderLen
    simp only [List.length_cons, List.length_append]
    omega
  append s h := by
    obtain ⟨hcheck, hlen⟩ := nextFrame_eq_some.mp h
    refine nextFrame_eq_some.mpr ⟨?_, hlen⟩
    rw [check_append s fun k hk => by cases hcheck.symm.trans hk]
    exact hcheck

theorem wholeFrames_nil : WholeFrames [] := fun _ _ => ⟨[], .nil _⟩

theorem WholeFrames.append {data data' : List UInt8} (h : WholeFrames data)
    (h' : WholeFrames data') : WholeFrames (data ++ data') := by
  intro max hmax
  obtain ⟨frames, hframes⟩ := h max hmax
  obtain ⟨frames', hframes'⟩ := h' max hmax
  exact ⟨frames ++ frames', (hframes.append (prefixed_nextFrame max) data').trans hframes'⟩

theorem nextFrame_frame {byte1 : UInt8} {body : List UInt8} {max : Nat} (s : List UInt8)
    (h : body.length ≤ 268435455) (hmax : body.length ≤ max) :
    nextFrame max (frame byte1 body ++ s) =
      some (frameHeader byte1 body, (frame byte1 body).length) := by
  have hlen : (frameHeader byte1 body).fixedHeaderLen + (frameHeader byte1 body).remainingLen =
      (frame byte1 body).length := by
    simp only [frameHeader, frame, List.length_cons, List.length_append]
    omega
  refine nextFrame_eq_some.mpr ⟨check_frame h hmax, ?_⟩
  rw [(onWire_frameHeader h).frameLength_eq, hlen]

theorem wholeFrames_frame {byte1 : UInt8} {body : List UInt8} (h : body.length ≤ 268435455) :
    WholeFrames (frame byte1 body) := by
  intro max hmax
  have hnext := @nextFrame_frame byte1 body max [] h (h.trans hmax)
  rw [List.append_nil] at hnext
  have hrest : Reads (nextFrame max) ((frame byte1 body).drop (frame byte1 body).length) [] [] := by
    rw [List.drop_length]
    exact .nil []
  exact ⟨_, .cons hnext hrest⟩

theorem IsPacket.wholeFrames {byte1 : UInt8} {buf : List UInt8} (h : IsPacket byte1 buf) :
    WholeFrames buf := by
  obtain ⟨body, hlen, rfl⟩ := h
  exact wholeFrames_frame hlen

theorem Send.Bytes.wholeFrames {packet : Send} {buf : List UInt8} (h : packet.Bytes buf) :
    WholeFrames buf := by
  cases packet with
  | pingRequest =>
    obtain rfl : buf = frame 0xC0 [] := h
    exact wholeFrames_frame (by simp)
  | pubAck packetId =>
    obtain rfl : buf = frame 0x40 (toBeBytes packetId) := h
    exact wholeFrames_frame (by simp)
  | pubRec packetId =>
    obtain rfl : buf = frame 0x50 (toBeBytes packetId) := h
    exact wholeFrames_frame (by simp)
  | pubComp packetId =>
    obtain rfl : buf = frame 0x70 (toBeBytes packetId) := h
    exact wholeFrames_frame (by simp)
  | publish | publishQos0 | publishQos1 => exact IsPacket.wholeFrames h

/-! ### What a call hands to the platform -/

section Calls

variable {σ E : Type} {α β : Type}

/-- A write that failed. -/
def Event.WriteFails : Event E → Prop
  | .wrote _ _ (.error _) => True
  | _ => False

instance : DecidablePred (Event.WriteFails : Event E → Prop)
  | .wrote _ _ (.error _) => .isTrue trivial
  | .wrote _ _ (.ok _) | .read .. | .clock _ => .isFalse id

theorem Event.WriteFails.isWrite {e : Event E} (h : e.WriteFails) : e.IsWrite := by
  cases e with
  | wrote => trivial
  | read | clock => exact h.elim

/-- The calls `evs` of the platform hand over whole packets, unless the last of
them is a write that failed, which leaves a closed client. -/
structure Outbound (w : World σ E) (evs : List (Event E)) (w' : World σ E) : Prop extends
    Logged w evs w' where
  whole : (∀ e ∈ evs, ¬e.WriteFails) → WholeFrames (written evs).flatten
  stops : ∀ before e behind, evs = before ++ e :: behind → e.WriteFails →
    behind = [] ∧ w'.state = .disconnected

section Outbound

variable {w t w' : World σ E} {evs evs' : List (Event E)}

/-- Calls of the platform that write nothing. -/
theorem Logged.outbound (h : Logged w evs w') (hevs : ∀ e ∈ evs, ¬e.IsWrite) :
    Outbound w evs w' where
  toLogged := h
  whole _ := by
    rw [written_of_not_isWrite hevs]
    exact wholeFrames_nil
  stops before e behind heq he := by
    subst heq
    exact absurd he.isWrite (hevs e (by simp))

/-- Calls of which no write failed. -/
theorem Logged.outbound_of_whole (h : Logged w evs w') (hevs : ∀ e ∈ evs, ¬e.WriteFails)
    (hwhole : WholeFrames (written evs).flatten) : Outbound w evs w' where
  toLogged := h
  whole _ := hwhole
  stops before e behind heq he := by
    subst heq
    exact absurd he (hevs e (by simp))

/-- A write that fails, behind calls that did not. -/
theorem Logged.outbound_broken {e : Event E} (h : Logged w (evs ++ [e]) w')
    (hevs : ∀ e ∈ evs, ¬e.WriteFails) (he : e.WriteFails) (hs : w'.state = .disconnected) :
    Outbound w (evs ++ [e]) w' where
  toLogged := h
  whole hok := absurd he (hok e (by simp))
  stops before e' behind heq he' := by
    refine ⟨?_, hs⟩
    obtain rfl | ⟨later, x, rfl⟩ := behind.eq_nil_or_concat
    · rfl
    · have hlast : evs ++ [e] = (before ++ e' :: later) ++ [x] := by
        rw [heq, List.concat_eq_append, List.append_assoc, List.cons_append]
      obtain rfl := (List.append_inj' hlast rfl).1
      exact absurd he' (hevs e' (by simp))

/-- What comes behind calls of which no write failed. -/
theorem Outbound.trans (h : Outbound w evs t) (hok : ∀ e ∈ evs, ¬e.WriteFails)
    (h' : Outbound t evs' w') : Outbound w (evs ++ evs') w' where
  toLogged := h.toLogged.trans h'.toLogged
  whole hok' := by
    rw [written_append, List.flatten_append]
    exact (h.whole hok).append (h'.whole fun e he => hok' e (List.mem_append_right _ he))
  stops before e behind heq he := by
    rcases List.append_eq_append_iff.mp heq with ⟨mid, rfl, hmid⟩ | ⟨mid, hmid, heq'⟩
    · exact h'.stops mid e behind hmid he
    · cases mid with
      | nil => exact h'.stops [] e behind heq'.symm he
      | cons x mid =>
        obtain ⟨rfl, -⟩ := List.cons.inj heq'
        exact absurd he (hok e (by rw [hmid]; simp))

/-- Calls that asked nothing of the platform, and left a closed client closed. -/
theorem Outbound.untouched (h : Outbound w evs t) (h' : Untouched t w') : Outbound w evs w' where
  toLogged := by
    have hlog := h.toLogged.trans (h'.logged h.valid)
    rwa [List.append_nil] at hlog
  whole := h.whole
  stops before e behind heq he := ⟨(h.stops before e behind heq he).1, h'.state⟩

end Outbound

/-- An operation that ends in `r` has handed over whole packets, and returns a
value only if no write failed. -/
def Handed (w : World σ E) (r : Outcome (Error E) α) (w' : World σ E) : Prop :=
  r ≠ .panic → ∃ evs, Outbound w evs w' ∧ ((∃ a, r = .ok a) → ∀ e ∈ evs, ¬e.WriteFails)

section Handed

variable {w t w' : World σ E} {evs : List (Event E)}

/-- What writes nothing. -/
theorem Logged.handed {r : Outcome (Error E) α} (h : Logged w evs w')
    (hevs : ∀ e ∈ evs, ¬e.IsWrite) : Handed w r w' :=
  fun _ => ⟨evs, h.outbound hevs, fun _ e he hf => hevs e he hf.isWrite⟩

/-- What comes behind a part that returned. -/
theorem Handed.andThen {r : Outcome (Error E) β} {a : α} (h : Handed w (.ok a) t)
    (h' : Handed t r w') : Handed w r w' := by
  intro hr
  obtain ⟨evs, hevs, hok⟩ := h nofun
  obtain ⟨evs', hevs', hok'⟩ := h' hr
  refine ⟨evs ++ evs', hevs.trans (hok ⟨a, rfl⟩) hevs', fun hb => ?_⟩
  exact List.forall_mem_append.mpr ⟨hok ⟨a, rfl⟩, hok' hb⟩

theorem Handed.bind {x : Act (World σ E) (Error E) α} {f : α → Act (World σ E) (Error E) β}
    (hx : Handed w (x w).1 (x w).2)
    (hf : ∀ a t, x w = (.ok a, t) → t.Valid → Handed t (f a t).1 (f a t).2) :
    Handed w ((x >>= f) w).1 ((x >>= f) w).2 := by
  rcases hrun : x w with ⟨r, t⟩
  rw [hrun] at hx
  rw [Act.bind_apply, hrun]
  cases r with
  | ok a =>
    obtain ⟨evs, hevs, -⟩ := hx nofun
    exact hx.andThen (hf a t hrun hevs.valid)
  | err e =>
    intro _
    obtain ⟨evs, hevs, -⟩ := hx nofun
    refine ⟨evs, hevs, ?_⟩
    rintro ⟨b, ⟨⟩⟩
  | panic => exact fun hr => absurd rfl hr

variable (p : Platform σ E)

theorem logged_sent {buf : List UInt8} {now : Instant} {s s' : σ} (hv : w.Valid) :
    Logged w [.wrote w.state buf (.ok ()), .clock now]
      (((w.wrote buf (.ok ()) s).clocked now s').packetSent now) := by
  have hwrote := Trace.wrote hv buf (.ok ()) s
  exact ((hwrote.trans (.clocked hwrote.valid now s')).packetSent now).toLogged

theorem not_writeFails_sent {buf : List UInt8} {state : State} {now : Instant} :
    ∀ e ∈ [Event.wrote state buf (.ok ()), .clock now], ¬(e : Event E).WriteFails :=
  List.forall_mem_cons.mpr ⟨id, List.forall_mem_singleton.mpr id⟩

/-- A write that fails, behind calls that did not. -/
theorem Logged.handed_broken {buf : List UInt8} {e : E} {s : σ} (h : Logged w evs t)
    (hevs : ∀ e ∈ evs, ¬e.WriteFails) :
    Handed w (.err (.io e) : Outcome (Error E) α) (t.wrote buf (.error e) s).closed := by
  intro _
  have hlog := h.trans (Trace.wrote h.valid buf (.error e) s).closed.toLogged
  refine ⟨_, hlog.outbound_broken hevs trivial rfl, ?_⟩
  rintro ⟨a, ⟨⟩⟩

/-- What is written in one piece. -/
theorem BufferWritten.handed {buf : List UInt8} {r : Outcome (Error E) Unit}
    (h : BufferWritten p buf w r w') (hv : w.Valid) (hbuf : WholeFrames buf) :
    Handed w r w' := by
  cases h with
  | closed => exact (Logged.refl hv).handed nofun
  | @sent s s' now =>
    have hwritten : written [Event.wrote w.state buf (.ok () : Except E Unit), .clock now] =
        [buf] := rfl
    refine fun _ => ⟨_, (logged_sent hv).outbound_of_whole not_writeFails_sent ?_,
      fun _ => not_writeFails_sent⟩
    rw [hwritten, List.flatten_singleton]
    exact hbuf
  | broken => exact (Logged.refl hv).handed_broken nofun

/-- What is written in two pieces. -/
theorem PairWritten.handed {buf buf' : List UInt8} {r : Outcome (Error E) Unit}
    (h : PairWritten p buf buf' w r w') (hv : w.Valid) (hbuf : WholeFrames (buf ++ buf')) :
    Handed w r w' := by
  cases h with
  | first hw hr =>
    cases hw with
    | closed => exact (Logged.refl hv).handed nofun
    | sent => exact absurd rfl hr
    | broken => exact (Logged.refl hv).handed_broken nofun
  | @second t _ _ hw ht hw' =>
    cases hw with
    | @sent s s' now =>
      have hlog := @logged_sent _ _ w buf now s s' hv
      generalize ((w.wrote buf (.ok ()) s).clocked now s').packetSent now = t at hlog ht hw'
      cases hw' with
      | closed hclosed => exact absurd hclosed ht
      | broken => exact hlog.handed_broken not_writeFails_sent
      | @sent _ _ now' =>
        have hok : ∀ e ∈ [Event.wrote w.state buf (.ok ()), .clock now] ++
            [.wrote t.state buf' (.ok ()), .clock now'], ¬(e : Event E).WriteFails :=
          List.forall_mem_append.mpr ⟨not_writeFails_sent, not_writeFails_sent⟩
        have hwritten : written ([Event.wrote w.state buf (.ok () : Except E Unit), .clock now] ++
            [.wrote t.state buf' (.ok ()), .clock now']) = [buf, buf'] := rfl
        refine fun _ => ⟨_, (hlog.trans (logged_sent hlog.valid)).outbound_of_whole hok ?_,
          fun _ => hok⟩
        rw [hwritten, List.flatten_cons, List.flatten_singleton]
        exact hbuf

end Handed

/-! ### The operations -/

section Operations

variable (p : Platform σ E) {w : World σ E}

theorem Sent.handed {F : List UInt8 → Prop} {short : Nat → Prop} {r : Outcome (Error E) Unit}
    {w' : World σ E} (h : Sent p F short w r w') (hv : w.Valid)
    (hF : ∀ buf, F buf → WholeFrames buf) : Handed w r w' := by
  cases h with
  | panicked => exact fun hr => absurd rfl hr
  | notEncoded _ hb => exact (Trace.withTx hv hb).toLogged.handed nofun
  | encoded hb hbuf hw =>
    have hnone := (Trace.withTx hv hb).toLogged
    have hfill : Handed w (.ok () : Outcome (Error E) Unit) _ := hnone.handed nofun
    exact hfill.andThen (hw.handed p hnone.valid (hF _ hbuf))

theorem performSend_handed (packet : Send) (hv : w.Valid) :
    Handed w (performSend p packet w).1 (performSend p packet w).2 :=
  (performSend_sent p packet w).handed p hv fun _ => Send.Bytes.wholeFrames

theorem completeNotification_handed (completion : NotificationCompletion) (hv : w.Valid) :
    Handed w (completeNotification p completion w).1 (completeNotification p completion w).2 := by
  rcases completeNotification_cases p completion w with ⟨hno, -⟩ | ⟨b, hb, hc⟩
  · exact absurd hv hno
  · obtain ⟨hvalid, -, hcap⟩ := hb hv
    have hlog : Logged w [] (w.withRx b) := ⟨(List.append_nil _).symm, hvalid, hcap, rfl⟩
    have hrx : Handed w (.ok () : Outcome (Error E) Unit) (w.withRx b) := hlog.handed nofun
    rw [hc, performAction]
    cases packetOf completion.action with
    | none => exact hrx
    | some packet => exact hrx.andThen (performSend_handed p packet hvalid)

/-- A call for a notification reads, and writes nothing. -/
theorem nextNotification_handed (hv : w.Valid) :
    Handed w (nextNotification p w).1 (nextNotification p w).2 := by
  have h := notified p hv
  generalize (nextNotification p w).1 = r at h ⊢
  generalize (nextNotification p w).2 = w' at h ⊢
  cases h with
  | closed => exact (Logged.refl hv).handed nofun
  | panicked => exact fun hr => absurd rfl hr
  | broke _ hb => exact hb.toLogged.handed hb.not_isWrite
  | ping _ hg _ hg' =>
    have ht := hg.trans hg'
    exact ht.toLogged.handed fun e he => (ht.quiet e he).1
  | @decoded evs evs' t u _ hg _ hc =>
    have ht := hg.trans hc.gathered
    have hmax := TransportClient.onBytesReceived_maxPacketSize u.client.transportClient u.content
    have hlogged : Logged w (evs ++ evs') (u.withTransport
        (TransportClient.onBytesReceived u.content u.client.transportClient).2) :=
      ⟨ht.log, ht.valid, ht.capacity, hmax.trans ht.maxPacketSize⟩
    exact hlogged.handed fun e he => (ht.quiet e he).1

theorem ConnackTaken.logged {r : Outcome (Error E) (Option ConnAck)} {w' : World σ E}
    (h : ConnackTaken w r w') (hv : w.Valid) : Logged w [] w' := by
  cases h with
  | more => exact .refl hv
  | accepted _ _ htransport _ hvalid hcap _ _ hlog =>
    refine ⟨hlog.trans (List.append_nil _).symm, hvalid, hcap, ?_⟩
    rw [htransport]
  | refused | rejected => exact (Trace.refl hv).closed.toLogged

theorem readConnack_handed (hv : w.Valid) (hs : w.state = .transportConnected) :
    Handed w (readConnack p w).1 (readConnack p w).2 := by
  have h := connackRead p hv hs
  generalize (readConnack p w).1 = r at h ⊢
  generalize (readConnack p w).2 = w' at h ⊢
  cases h with
  | panicked => exact fun hr => absurd rfl hr
  | broke hb => exact hb.toLogged.handed hb.not_isWrite
  | took hg _ hc htaken =>
    have ht := hg.trans hc.gathered
    have hlog := ht.toLogged.trans (htaken.logged ht.valid)
    rw [List.append_nil] at hlog
    exact hlog.handed fun e he => (ht.quiet e he).1

theorem connect_handed (options : ConnectOptions) :
    Handed w (connect p options w).1 (connect p options w).2 := by
  by_cases hfits : options.asConnect.Fits w.client.txBuffer.length
  · have hencoded : Logged w [] (w.encoded options) :=
      ⟨(List.append_nil _).symm, Nat.zero_le _, rfl, rfl⟩
    have hopen : Handed w (.ok () : Outcome (Error E) Unit) (w.encoded options) :=
      hencoded.handed nofun
    have hwrite := bufferWritten p (connectBytes options) (w.encoded options)
    have hframe : WholeFrames (connectBytes options) :=
      wholeFrames_frame (options.asConnect.length_body.trans_le hfits.1)
    rw [connect_of_fits p hfits]
    refine hopen.andThen (.bind (hwrite.handed p hencoded.valid hframe) ?_)
    intro _ t hrun ht
    rw [hrun] at hwrite
    cases hwrite with
    | sent =>
      have hs := @state_greeted σ E
      rw [awaitConnack_eq p ht hs]
      exact readConnack_handed p ht hs
  · have h := connected p options w
    generalize (connect p options w).1 = r at h ⊢
    generalize (connect p options w).2 = w' at h ⊢
    cases h with
    | @notEncoded e b _ hb =>
      have hlog : Logged w [] ((w.opened options).withTx b) :=
        ⟨(List.append_nil _).symm, Nat.zero_le _, rfl, rfl⟩
      exact hlog.handed nofun
    | broken h | greeted h => exact absurd h hfits

/-- The closure of a SUBSCRIBE comes first: if it fails, or its payload is too
long, nothing is written, and else the two pieces of one frame. -/
theorem writeSubscribe_cases (subscriptions : SubscribeFn) (w : World σ E) :
    (∃ b e, b.length = w.client.txBuffer.length ∧
      writeSubscribe p subscriptions w = (.err (.writeError e), w.withTx b)) ∨
    ∃ b header payload, b.length = w.client.txBuffer.length ∧ WholeFrames (header ++ payload) ∧
      writeSubscribe p subscriptions w =
        (do writeBuffer p header; writeBuffer p payload : Act (World σ E) (Error E) Unit)
          (w.withTx b) := by
  obtain ⟨-, hcap, hpanic⟩ :=
    SubscribeWriter.run_grows subscriptions (Filled.empty w.client.txBuffer)
  rcases hrun : subscriptions.run SubscribeWriter.answer (Filled.empty w.client.txBuffer) with
    ⟨⟨⟩ | e | _, b⟩
  · rw [hrun] at hcap
    rw [writeSubscribe_of_run hrun]
    split
    · refine .inr ⟨b.buffer, _, b.written, hcap, ?_, rfl⟩
      rw [header_append_written]
      refine wholeFrames_frame ?_
      rwa [List.length_append, length_toBeBytes, Filled.length_written, Nat.add_comm]
    · exact .inl ⟨b.buffer, _, hcap, rfl⟩
  · rw [hrun] at hcap
    exact .inl ⟨b.buffer, e, hcap, writeSubscribe_of_err hrun⟩
  · rw [hrun] at hpanic
    exact absurd rfl hpanic

theorem writeSubscribe_handed (subscriptions : SubscribeFn) (hv : w.Valid) :
    Handed w (writeSubscribe p subscriptions w).1 (writeSubscribe p subscriptions w).2 := by
  rcases writeSubscribe_cases p subscriptions w with
    ⟨b, e, hb, hw⟩ | ⟨b, header, payload, hb, hframe, hw⟩
  · rw [hw]
    exact (Trace.withTx hv hb).toLogged.handed nofun
  · have hlog := (Trace.withTx hv hb).toLogged
    have hfill : Handed w (.ok () : Outcome (Error E) Unit) _ := hlog.handed nofun
    rw [hw]
    exact hfill.andThen ((pairWritten p _ _ _).handed p hlog.valid hframe)

theorem handed_pure (a : α) (hv : w.Valid) :
    Handed w (.ok a : Outcome (Error E) α) w := (Logged.refl hv).handed nofun

theorem behindConnect_handed (call : Call) (ack : ConnAck) (hv : w.Valid) :
    Handed w (behindConnect p call ack w).1 (behindConnect p call ack w).2 := by
  cases call with
  | connectSubscribe _ subscriptions =>
    refine .bind ?_ fun _ _ _ => handed_pure _
    cases ack.code.isSuccess with
    | false => exact handed_pure () hv
    | true => exact writeSubscribe_handed p subscriptions hv
  | connect | nextNotification | completeNotification | send | isDisconnected =>
    exact handed_pure _ hv

/-- Every operation hands over whole packets. -/
theorem perform_handed (call : Call) (hv : w.Valid) :
    Handed w (perform p call w).1 (perform p call w).2 := by
  cases hc : call.connects with
  | some options =>
    rw [perform_of_connects p hc]
    exact (connect_handed p options).bind fun ack _ _ ht => behindConnect_handed p call ack ht
  | none =>
    cases call with
    | connect | connectSubscribe => cases hc
    | nextNotification =>
      exact (nextNotification_handed p hv).bind fun _ _ _ => handed_pure _
    | completeNotification completion =>
      exact (completeNotification_handed p completion hv).bind fun _ _ _ => handed_pure _
    | send packet => exact (performSend_handed p packet hv).bind fun _ _ _ => handed_pure _
    | isDisconnected => exact handed_pure _ hv

end Operations

/-! ### Packets that are not encoded -/

/-- Nothing has been handed to the platform, and the transport client is as it
was. -/
def Unsent (w w' : World σ E) : Prop :=
  w'.log = w.log ∧ w'.client.transportClient = w.client.transportClient

section Unsent

variable {p : Platform σ E} {w w' : World σ E} {e : WriteError}

theorem writeBuffer_ne_writeError (buf : List UInt8) (w w' : World σ E) (e : WriteError) :
    writeBuffer p buf w ≠ (.err (.writeError e), w') := by
  intro h
  have hw := bufferWritten p buf w
  rw [h] at hw
  cases hw

theorem Sent.unsent {F : List UInt8 → Prop} {short : Nat → Prop}
    (h : Sent p F short w (.err (.writeError e)) w') : Unsent w w' := by
  cases h with
  | notEncoded => exact ⟨rfl, rfl⟩
  | encoded _ _ hw => cases hw

theorem performSend_unsent {packet : Send}
    (h : performSend p packet w = (.err (.writeError e), w')) : Unsent w w' := by
  have hsent := performSend_sent p packet w
  rw [h] at hsent
  exact hsent.unsent

theorem completeNotification_unsent {completion : NotificationCompletion}
    (h : completeNotification p completion w = (.err (.writeError e), w')) : Unsent w w' := by
  rcases completeNotification_cases p completion w with ⟨-, hc⟩ | ⟨b, -, hc⟩
  · cases hc.symm.trans h
  · rw [hc, performAction] at h
    cases hpacket : packetOf completion.action with
    | none =>
      rw [hpacket] at h
      cases h
    | some packet =>
      rw [hpacket] at h
      exact @performSend_unsent _ _ _ (w.withRx b) _ _ _ h

theorem nextNotification_ne_writeError (hv : w.Valid) :
    nextNotification p w ≠ (.err (.writeError e), w') := by
  intro h
  have hn := notified p hv
  rw [h] at hn
  generalize hr : (Outcome.err (.writeError e) : Outcome (Error E) ClientNotification) = r at hn
  cases hn with
  | closed | panicked | ping => cases hr
  | broke _ _ he =>
    cases hr
    rcases he with h | ⟨x, h⟩ <;> cases h
  | @decoded evs evs' t u =>
    generalize (TransportClient.onBytesReceived u.content u.client.transportClient).1 = x at hr
    rcases x with (_ | _) | _ | _ <;> cases hr

/-- An operation that does not connect, and fails to encode its packet. -/
theorem perform_unsent {call : Call} (hc : call.connects = none) (hv : w.Valid)
    (h : perform p call w = (.err (.writeError e), w')) : Unsent w w' := by
  cases call with
  | connect | connectSubscribe => cases hc
  | nextNotification =>
    rcases Act.bind_eq_err.mp h with h | ⟨a, t, -, h⟩
    · exact absurd h (nextNotification_ne_writeError hv)
    · cases h
  | completeNotification completion =>
    rcases Act.bind_eq_err.mp h with h | ⟨a, t, -, h⟩
    · exact completeNotification_unsent h
    · cases h
  | send packet =>
    rcases Act.bind_eq_err.mp h with h | ⟨a, t, -, h⟩
    · exact performSend_unsent h
    · cases h
  | isDisconnected => cases h

theorem writeSubscribe_unsent {subscriptions : SubscribeFn}
    (h : writeSubscribe p subscriptions w = (.err (.writeError e), w')) : Unsent w w' := by
  rcases writeSubscribe_cases p subscriptions w with ⟨b, e, -, hw⟩ | ⟨b, header, payload, -, -, hw⟩
  · cases hw.symm.trans h
    exact ⟨rfl, rfl⟩
  · rw [hw] at h
    rcases Act.bind_eq_err.mp h with h | ⟨⟨⟩, t, -, h⟩
    · exact absurd h (writeBuffer_ne_writeError _ _ _ _)
    · exact absurd h (writeBuffer_ne_writeError _ _ _ _)

/-- A `connect_subscribe` that fails to encode its SUBSCRIBE, behind the handshake. -/
theorem connectSubscribe_unsent {options : ConnectOptions} {subscriptions : SubscribeFn}
    {ack : ConnAck} {w₁ : World σ E} (hconnect : connect p options w = (.ok ack, w₁))
    (h : connectSubscribe p options subscriptions w = (.err (.writeError e), w')) :
    Unsent w₁ w' := by
  rw [connectSubscribe, Act.bind_of_ok hconnect] at h
  rcases Act.bind_eq_err.mp h with h | ⟨a, t, -, h⟩
  · cases hsuccess : ack.code.isSuccess with
    | false =>
      rw [hsuccess] at h
      cases h
    | true =>
      rw [hsuccess] at h
      exact writeSubscribe_unsent h
  · cases h

end Unsent

/-! ### Runs -/

/-- A run of calls that all return, with the world in which its last call that
connects began. -/
inductive Epoch (p : Platform σ E) (w₀ : World σ E) : World σ E → World σ E → Prop where
  | start : Epoch p w₀ w₀ w₀
  | opens {start w w' : World σ E} {call : Call} {r : Outcome (Error E) Value} :
      Epoch p w₀ start w → call.connects ≠ none → perform p call w = (r, w') → r ≠ .panic →
      Epoch p w₀ w w'
  | goes {start w w' : World σ E} {call : Call} {r : Outcome (Error E) Value} :
      Epoch p w₀ start w → call.connects = none → perform p call w = (r, w') → r ≠ .panic →
      Epoch p w₀ start w'

section Runs

variable {p : Platform σ E} {w₀ start w w' : World σ E} {evs : List (Event E)}

/-- One more call of an epoch. -/
theorem Outbound.perform {call : Call} {r : Outcome (Error E) Value} (h : Outbound start evs w)
    (hc : call.connects = none) (hp : perform p call w = (r, w')) (hr : r ≠ .panic) :
    ∃ evs', Outbound start evs' w' := by
  by_cases hok : ∀ e ∈ evs, ¬e.WriteFails
  · have hhanded := perform_handed p call h.valid
    rw [hp] at hhanded
    obtain ⟨evs', hevs', -⟩ := hhanded hr
    exact ⟨_, h.trans hok hevs'⟩
  · push Not at hok
    obtain ⟨e, he, hfails⟩ := hok
    obtain ⟨before, behind, rfl⟩ := List.append_of_mem he
    have hu := @perform_untouched _ _ p w call hc (h.stops before e behind rfl hfails).2
    rw [hp] at hu
    exact ⟨_, h.untouched hu⟩

/-- What was handed to the platform in the last epoch of a run. -/
theorem Epoch.outbound (hv : w₀.Valid) (h : Epoch p w₀ start w) : ∃ evs, Outbound start evs w := by
  induction h with
  | start => exact ⟨[], (Logged.refl hv).outbound nofun⟩
  | @opens _ w _ call _ _ _ hp hr ih =>
    obtain ⟨evs, hevs⟩ := ih
    have hhanded := perform_handed p call hevs.valid
    rw [hp] at hhanded
    obtain ⟨evs', hevs', -⟩ := hhanded hr
    exact ⟨evs', hevs'⟩
  | goes _ hc hp hr ih =>
    obtain ⟨evs, hevs⟩ := ih
    exact hevs.perform hc hp hr

end Runs

/-- Between the calls of any run from a new client: as long as no write failed,
all that was handed to the platform since the last call that connects began is a
concatenation of frames, and behind a write that failed nothing was written.  A
call that fails to encode a packet hands over nothing of it, and leaves the
transport client as it was; of a `connect_subscribe` this holds from the end of
its handshake on. -/
theorem outbound_frames {p : Platform σ E} {txBuffer rxBuffer : List UInt8} {s : σ}
    {start w : World σ E} (hrun : Epoch p ⟨new txBuffer rxBuffer, s, []⟩ start w) :
    ((∀ e ∈ w.log.drop start.log.length, ¬e.WriteFails) →
      WholeFrames (written (w.log.drop start.log.length)).flatten) ∧
    (∀ before e behind, w.log.drop start.log.length = before ++ e :: behind → e.WriteFails →
      written behind = []) ∧
    (∀ call w' e, call.connects = none → perform p call w = (.err (.writeError e), w') →
      w'.log = w.log ∧ w'.client.transportClient = w.client.transportClient) ∧
    ∀ options subscriptions ack w₁ w' e, connect p options w = (.ok ack, w₁) →
      connectSubscribe p options subscriptions w = (.err (.writeError e), w') →
      w'.log = w₁.log ∧ w'.client.transportClient = w₁.client.transportClient := by
  obtain ⟨evs, hevs⟩ := hrun.outbound (Nat.zero_le _)
  have hlog : w.log.drop start.log.length = evs := by
    rw [hevs.log, List.drop_left]
  rw [hlog]
  refine ⟨hevs.whole, fun before e behind heq he => ?_, fun call w' e hc hp => ?_,
    fun options subscriptions ack w₁ w' e hconnect h => connectSubscribe_unsent hconnect h⟩
  · rw [(hevs.stops before e behind heq he).1]
    rfl
  · exact perform_unsent hc hevs.valid hp

/-- A handshake with a subscription, and a ping behind it: four writes, of which the
second and the third are one frame. -/
theorem outbound_frames_ping :
    let p := streamPlatform 64
    let options : ConnectOptions := ⟨"client", none, none, 10, true⟩
    let subscriptions : SubscribeFn := .ask (.addStr "a" .atMostOnce) fun _ => .done (.ok ())
    let w₀ : World (List UInt8) Unit :=
      ⟨new (List.replicate 32 0) (List.replicate 16 0), [0x20, 2, 0, 0], []⟩
    let r₁ := perform p (.connectSubscribe options subscriptions) w₀
    let r₂ := perform p (.send .pingRequest) r₁.2
    let connect : List UInt8 :=
      [0x10, 18, 0, 4, 77, 81, 84, 84, 4, 2, 0, 10, 0, 6, 99, 108, 105, 101, 110, 116]
    written r₂.2.log = [connect, [0x82, 6, 0, 1], [0, 1, 97, 0], [0xC0, 0]] ∧
      WholeFrames (connect ++ [0x82, 6, 0, 1, 0, 1, 97, 0] ++ [0xC0, 0]) := by
  intro p options subscriptions w₀ r₁ r₂ connect
  have hopened : Epoch p w₀ w₀ r₁.2 :=
    @Epoch.opens _ _ _ _ _ _ _ (.connectSubscribe options subscriptions) r₁.1 .start
      (Option.some_ne_none _) Prod.mk.eta.symm (by decide +kernel)
  have hrun : Epoch p w₀ w₀ r₂.2 :=
    @Epoch.goes _ _ _ _ _ _ _ (.send .pingRequest) r₂.1 hopened rfl Prod.mk.eta.symm
      (by decide +kernel)
  have hwritten : written r₂.2.log = [connect, [0x82, 6, 0, 1], [0, 1, 97, 0], [0xC0, 0]] := by
    decide +kernel
  have hwhole := (outbound_frames hrun).1 (by decide +kernel)
  have hall : r₂.2.log.drop w₀.log.length = r₂.2.log := rfl
  rw [hall, hwritten] at hwhole
  exact ⟨hwritten, hwhole⟩

end Calls

end NanoClient

end Umqtt
