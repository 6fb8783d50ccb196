/-
Umqtt/NanoClient/Bounded.lean

The receive buffer stays within its bounds, and the loops that read end.

The platform is taken to keep its contract: a read reports no more bytes than
its slice has (`Platform.Honest`), and times out only if it has a timeout
(`Platform.Timely`).  Then no operation panics, except for the one that
publishes with a tx buffer of less than five bytes (`perform_eq_panic`), so that
no access to the receive buffer is out of bounds.  Every turn of a loop that
goes on has received some bytes, for which there was room: no call reads more
than once more often than it has free bytes (`Frugal`).
-/
import Umqtt.NanoClient.FullBuffer
import Umqtt.NanoClient.Publishing
import Umqtt.NanoClient.Session

namespace Umqtt

open Effects Wire

/-- A read without a timeout does not time out. -/
def Platform.Timely {σ E : Type} (p : Platform σ E) : Prop :=
  ∀ buf s, (p.readSome buf none s).1.1 ≠ .ok none

namespace NanoClient

section Bounded

variable {σ E : Type} (p : Platform σ E) {w w' : World σ E}

/-! ### Operations that do not panic -/

theorem writeBuffer_ne_panic (buf : List UInt8) (w : World σ E) :
    (writeBuffer p buf w).1 ≠ .panic := by
  have h := bufferWritten p buf w
  generalize (writeBuffer p buf w).1 = r at h ⊢
  generalize (writeBuffer p buf w).2 = w' at h
  cases h with
  | closed | sent | broken => nofun

theorem sendPacket_ne_panic {write : Act (List UInt8) WriteError Nat} {bs : List UInt8}
    (hw : Writes WriteError.notEnoughCapacity write bs) (w : World σ E) :
    (sendPacket p write w).1 ≠ .panic := by
  by_cases h : bs.length ≤ w.client.txBuffer.length
  · rw [sendPacket_of_le p hw h]
    exact writeBuffer_ne_panic p bs _
  · obtain ⟨b, hb, -⟩ := (hw w.client.txBuffer).2 (Nat.lt_of_not_le h)
    rw [sendPacket, Act.bind_of_err (onTx_apply hb)]
    rintro ⟨⟩

/-- The packets that are encoded in place. -/
def Send.Publishes : Send → Prop
  | .publish _ _ _ | .publishQos0 _ _ | .publishQos1 _ _ _ => True
  | _ => False

theorem performSend_eq_panic (packet : Send) (w : World σ E) :
    (performSend p packet w).1 = .panic ↔ packet.Publishes ∧ w.client.txBuffer.length < 5 := by
  have hno : ∀ {write : Act (List UInt8) WriteError Nat} {bs : List UInt8},
      Writes WriteError.notEnoughCapacity write bs →
      ((sendPacket p write w).1 = .panic ↔ False ∧ w.client.txBuffer.length < 5) :=
    fun hw => iff_of_false (sendPacket_ne_panic p hw w) And.left
  cases packet with
  | pingRequest => exact hno (writes_writeEmpty 0xC0)
  | pubAck packetId => exact hno (writes_writeAck 0x40 packetId)
  | pubRec packetId => exact hno (writes_writeAck 0x50 packetId)
  | pubComp packetId => exact hno (writes_writeAck 0x70 packetId)
  | publish | publishQos0 | publishQos1 =>
    exact (sendPublish_eq_panic p _ _ _ w).trans (iff_of_eq (true_and _)).symm

theorem completeNotification_ne_panic (completion : NotificationCompletion) (hv : w.Valid) :
    (completeNotification p completion w).1 ≠ .panic := by
  rcases completeNotification_cases p completion w with ⟨hno, -⟩ | ⟨b, -, hc⟩
  · exact absurd hv hno
  · rw [hc]
    cases haction : packetOf completion.action with
    | none =>
      rw [performAction, haction]
      rintro ⟨⟩
    | some packet =>
      rw [performAction, haction]
      refine mt (performSend_eq_panic p packet _).mp fun h => ?_
      -- a completion does not publish
      rcases completion with ⟨_, _ | _ | _ | _ | _⟩ <;> cases haction <;> exact h.1

theorem writeSubscribe_ne_panic (subscriptions : SubscribeFn) (w : World σ E) :
    (writeSubscribe p subscriptions w).1 ≠ .panic := by
  rcases writeSubscribe_cases p subscriptions w with ⟨b, e, -, hw⟩ | ⟨b, header, payload, -, -, hw⟩
  · rw [hw]
    nofun
  · rw [hw]
    exact Act.bind_ne_panic (writeBuffer_ne_panic p _ _) fun _ _ _ => writeBuffer_ne_panic p _ _

theorem behindConnect_ne_panic (call : Call) (ack : ConnAck) (w : World σ E) :
    (behindConnect p call ack w).1 ≠ .panic := by
  cases call with
  | connectSubscribe _ subscriptions =>
    refine Act.bind_ne_panic ?_ fun _ _ _ => nofun
    cases ack.code.isSuccess with
    | false => nofun
    | true => exact writeSubscribe_ne_panic p subscriptions w
  | connect | nextNotification | completeNotification | send | isDisconnected => nofun

/-- A turn of `read_connack` that goes on leaves less room. -/
theorem readConnackTurn_step {t : World σ E} (hw : w.Valid ∧ w.state = .transportConnected)
    (hturn : readConnackTurn p w = (.ok none, t)) :
    (t.Valid ∧ t.state = .transportConnected) ∧
      t.capacity - t.content.length < w.capacity - w.content.length := by
  obtain ⟨hv, hs⟩ := hw
  have h := connackTurn p hv hs
  rw [hturn] at h
  cases h with
  | took hc htaken =>
    cases htaken with
    | more => exact ⟨⟨hc.valid, hc.gathered.state.trans hs⟩, hc.room_lt⟩

section Contract

variable {p} (hhonest : p.Honest) (htimely : p.Timely)

include htimely

theorem readSomeWithTimeout_ne_idle (w : World σ E) :
    (readSomeWithTimeout p none w).1 ≠ .ok none := by
  have h := someRead p none w
  generalize (readSomeWithTimeout p none w).1 = r at h ⊢
  generalize (readSomeWithTimeout p none w).2 = w' at h
  cases h with
  | idle _ hr => exact absurd (by rw [hr]) (htimely _ _)
  | invalid | eof | failed | bytes => nofun

include hhonest

/-- A turn of `read_connack` does not find that its read timed out. -/
theorem readConnackTurn_ne_panic (hv : w.Valid) (hs : w.state = .transportConnected) :
    (readConnackTurn p w).1 ≠ .panic := by
  have hread := readEnd p (.refl hv) rfl none
  refine Act.bind_ne_panic ?_ fun n t ht => ?_
  -- the read itself
  · generalize (readSomeWithTimeout p none w).1 = r at hread ⊢
    generalize (readSomeWithTimeout p none w).2 = w' at hread
    cases hread with
    | idle | broke | bytes => nofun
  -- what is made of its result: `unwrap()` is behind `Timely`, the slice behind `Honest`
  · have hidle := readSomeWithTimeout_ne_idle htimely w
    rw [ht] at hread hidle
    generalize hok : (Outcome.ok n : Outcome (Error E) (Option Nat)) = r at hread
    cases hread with
    | idle => exact absurd hok hidle
    | broke => cases hok
    | bytes evs hn hc hvalid =>
      cases hok
      have hchunk := hc (hvalid hhonest)
      have htaken := connackTaken hchunk.valid (hchunk.gathered.state.trans hs)
      simp only [if_neg hn]
      generalize (takeConnack t).1 = r at htaken ⊢
      generalize (takeConnack t).2 = u at htaken
      cases htaken with
      | more | accepted | refused | rejected => nofun

theorem readConnack_ne_panic (hv : w.Valid) (hs : w.state = .transportConnected) :
    (readConnack p w).1 ≠ .panic := by
  rw [readConnack, Act.bind_of_ok (turns_apply hv)]
  exact Act.loop_ne_panic (fun _ _ => readConnackTurn_step p)
    (fun _ h => readConnackTurn_ne_panic hhonest htimely h.1 h.2) ⟨hv, hs⟩ (Nat.lt_succ_self _)

theorem connect_ne_panic (options : ConnectOptions) (w : World σ E) :
    (connect p options w).1 ≠ .panic := by
  rcases connect_cases p options w with
    ⟨-, e, b, -, hc⟩ | ⟨-, ⟨e, s, -, hc⟩ | ⟨s, -, hc⟩⟩
  · rw [hc]
    nofun
  · rw [hc]
    nofun
  · rw [hc]
    exact readConnack_ne_panic hhonest htimely valid_greeted state_greeted

omit htimely

theorem nextNotification_ne_panic (hv : w.Valid) : (nextNotification p w).1 ≠ .panic := by
  have h := notified p hv
  generalize (nextNotification p w).1 = r at h ⊢
  generalize (nextNotification p w).2 = w' at h
  cases h with
  | closed | broke | ping => nofun
  | panicked _ hno => exact absurd hhonest hno
  | @decoded _ _ _ u =>
    have hr := TransportClient.received u.client.transportClient u.content
    generalize (TransportClient.onBytesReceived u.content u.client.transportClient).1 = r at hr ⊢
    generalize (TransportClient.onBytesReceived u.content u.client.transportClient).2 = c at hr
    cases hr with
    | closed | needMore | malformed | accepted | refused | unexpected | packet => nofun

end Contract

/-- The calls that encode a packet in place. -/
def Call.Publishes : Call → Prop
  | .send packet => packet.Publishes
  | _ => False

/-- On a platform that keeps its contract, nothing panics but publishing with a
tx buffer that has no room for the longest fixed header. -/
theorem perform_eq_panic (hhonest : p.Honest) (htimely : p.Timely) (hv : w.Valid) (call : Call) :
    (perform p call w).1 = .panic ↔ call.Publishes ∧ w.client.txBuffer.length < 5 := by
  have hconnects : ∀ options, call.connects = some options → (perform p call w).1 ≠ .panic := by
    intro options hc
    rw [perform_of_connects p hc]
    exact Act.bind_ne_panic (connect_ne_panic hhonest htimely options w)
      fun _ _ _ => behindConnect_ne_panic p call _ _
  cases call with
  | connect options | connectSubscribe options _ =>
    exact ⟨fun h => absurd h (hconnects options rfl), fun h => h.1.elim⟩
  | nextNotification =>
    have hne := nextNotification_ne_panic hhonest hv
    exact ⟨fun h => absurd (Act.bind_pure_eq_panic.mp h) hne, fun h => h.1.elim⟩
  | completeNotification completion =>
    have hne := completeNotification_ne_panic p completion hv
    exact ⟨fun h => absurd (Act.bind_pure_eq_panic.mp h) hne, fun h => h.1.elim⟩
  | send packet => exact Act.bind_pure_eq_panic.trans (performSend_eq_panic p packet w)
  | isDisconnected => exact ⟨nofun, fun h => h.1.elim⟩

/-! ### How often a call reads -/

/-- The free bytes of the receive buffer. -/
def World.room (w : World σ E) : Nat := w.capacity - w.client.rxBuffer.used

/-- Calls of the platform that read at most once more often than they received
bytes, for which there was room. -/
structure Frugal (w : World σ E) (evs : List (Event E)) : Prop where
  reads : (timeouts evs).length ≤ (received evs).length + 1
  fits : (received evs).length ≤ w.room

theorem timeouts_of_not_isRead {evs : List (Event E)} (h : ∀ e ∈ evs, ¬e.IsRead) :
    timeouts evs = [] := by
  apply List.filterMap_eq_nil_iff.mpr
  intro e he
  have hno := h e he
  cases e with
  | read => exact absurd trivial hno
  | wrote | clock => rfl

/-- What was appended to the used bytes had room. -/
theorem Trace.fits {evs : List (Event E)} (h : Trace w evs w') (hv : w.Valid) :
    (received evs).length ≤ w.room := by
  have hlen := congrArg List.length h.content
  have hle := (length_content h.valid).2
  rw [List.length_append, (length_content hv).1] at hlen
  rw [h.capacity] at hle
  rw [World.room]
  omega

/-- Every turn that goes on reads once, and receives some bytes. -/
theorem Polls.timeouts_le {lead : World σ E → List (Event E) → Option Duration → Prop}
    {goes : World σ E → Prop} {t : World σ E} {evs : List (Event E)}
    (hlead : ∀ t pre timeout, lead t pre timeout → ∀ e ∈ pre, ¬e.IsRead)
    (h : Polls lead goes w evs t) : (timeouts evs).length ≤ (received evs).length := by
  induction h with
  | nil => exact Nat.le_refl _
  | @more evs pre timeout n buf _ _ _ hpre _ hn hle _ _ ih =>
    -- one more timeout, and at least one more byte
    have hread : timeouts (pre ++ [Event.read timeout (.ok (some n) : Except E _) buf]) =
        [timeout] := by
      rw [timeouts_append, timeouts_of_not_isRead (hlead _ _ _ hpre)]
      rfl
    have hbytes : received [Event.read timeout (.ok (some n) : Except E _) buf] = buf.take n :=
      List.append_nil _
    rw [timeouts_append, hread, received_append, received_append, hbytes]
    simp only [List.length_append, List.length_take, List.length_singleton]
    omega

/-- The turns of a loop, and its last one. -/
theorem Polls.frugal {lead : World σ E → List (Event E) → Option Duration → Prop}
    {goes : World σ E → Prop} {t u : World σ E} {evs pre : List (Event E)}
    {timeout : Option Duration} {result : Except E (Option Nat)} {buf : List UInt8}
    (hlead : ∀ t pre timeout, lead t pre timeout → ∀ e ∈ pre, ¬e.IsRead) (hv : w.Valid)
    (h : Polls lead goes w evs t) (hpre : lead t pre timeout)
    (hlast : Trace t (pre ++ [.read timeout result buf]) u) :
    Frugal w (evs ++ (pre ++ [.read timeout result buf])) where
  fits := (h.gathered.toTrace.trans hlast).fits hv
  reads := by
    have hle := h.timeouts_le hlead
    have hread : timeouts (pre ++ [Event.read timeout result buf]) = [timeout] := by
      rw [timeouts_append, timeouts_of_not_isRead (hlead _ _ _ hpre)]
      rfl
    rw [timeouts_append, hread, received_append, List.length_append, List.length_append,
      List.length_singleton]
    omega

variable {p}

theorem NextEnd.traced {t : World σ E} {now : Instant} {result : Except E (Option Nat)}
    {buf : List UInt8} {r : Outcome (Error E) ClientNotification}
    (h : NextEnd p t now result buf r w') (hhonest : p.Honest) :
    ∃ u, Trace t (t.poll now result buf) u := by
  cases h with
  | idle hg => exact ⟨_, hg.toTrace⟩
  | broke hb => exact ⟨_, hb.toTrace⟩
  | framed _ _ hc => exact ⟨_, hc.toTrace⟩
  | overrun _ hno => exact absurd hhonest hno

theorem nextNotification_frugal (hhonest : p.Honest) (hv : w.Valid) :
    ∃ evs, (nextNotification p w).2.log = w.log ++ evs ∧ Frugal w evs := by
  by_cases hs : w.state = .disconnected
  · rw [nextNotification_of_disconnected p hs]
    exact ⟨[], (List.append_nil _).symm, Nat.zero_le _, Nat.zero_le _⟩
  · obtain ⟨evs, t, now, result, buf, ht, -, hend⟩ := nextNotification_polls p hv hs
    obtain ⟨u, hu⟩ := hend.traced hhonest
    refine ⟨_, ?_, ht.frugal ?_ hv ⟨now, rfl, rfl⟩ hu⟩
    · rw [hend.log, ht.gathered.log, List.append_assoc]
      rfl
    · rintro _ _ _ ⟨now, rfl, -⟩
      exact List.forall_mem_singleton.mpr id

theorem ConnackEnd.traced {t : World σ E} {result : Except E (Option Nat)} {buf : List UInt8}
    {r : Outcome (Error E) ConnAck} (h : ConnackEnd t result buf r w') (hr : r ≠ .panic)
    (hs : t.state = .transportConnected) :
    ∃ u, Trace t [.read none result buf] u ∧ w'.log = u.log := by
  cases h with
  | panicked => exact absurd rfl hr
  | broke hb => exact ⟨_, hb.toTrace, rfl⟩
  | took _ _ hc htake =>
    have htaken := connackTaken hc.valid (hc.gathered.state.trans hs)
    rw [htake] at htaken
    exact ⟨_, hc.toTrace, (htaken.logged hc.valid).log.trans (List.append_nil _)⟩

theorem readConnack_frugal (hv : w.Valid) (hs : w.state = .transportConnected)
    (hr : (readConnack p w).1 ≠ .panic) :
    ∃ evs, (readConnack p w).2.log = w.log ++ evs ∧ Frugal w evs := by
  obtain ⟨evs, t, result, buf, ht, -, hend⟩ := readConnack_polls p hv hs
  obtain ⟨u, hu, hlog⟩ := hend.traced hr (ht.gathered.state.trans hs)
  refine ⟨_, ?_, @Polls.frugal _ _ _ _ _ _ _ _ [] none result buf ?_ hv ht ⟨rfl, rfl⟩ hu⟩
  · rw [hlog, hu.log, ht.gathered.log, List.append_assoc]
    rfl
  · rintro _ _ _ ⟨rfl, -⟩
    nofun

/-- Calls of the platform that do not read come before the others. -/
theorem Frugal.append_left {t : World σ E} {evs evs' : List (Event E)} (h : Frugal t evs')
    (hevs : ∀ e ∈ evs, ¬e.IsRead) (hroom : t.room = w.room) : Frugal w (evs ++ evs') := by
  obtain ⟨hreads, hfits⟩ := h
  have htimeouts : timeouts (evs ++ evs') = timeouts evs' := by
    rw [timeouts_append, timeouts_of_not_isRead hevs, List.nil_append]
  have hreceived : received (evs ++ evs') = received evs' := by
    rw [received_append, received_of_not_isRead hevs, List.nil_append]
  rw [hroom] at hfits
  exact ⟨by rwa [htimeouts, hreceived], by rwa [hreceived]⟩

/-- Calls of the platform that do not read come behind the others. -/
theorem Frugal.append_right {evs evs' : List (Event E)} (h : Frugal w evs)
    (hevs' : ∀ e ∈ evs', ¬e.IsRead) : Frugal w (evs ++ evs') := by
  obtain ⟨hreads, hfits⟩ := h
  have htimeouts : timeouts (evs ++ evs') = timeouts evs := by
    rw [timeouts_append, timeouts_of_not_isRead hevs', List.append_nil]
  have hreceived : received (evs ++ evs') = received evs := by
    rw [received_append, received_of_not_isRead hevs', List.append_nil]
  exact ⟨by rwa [htimeouts, hreceived], by rwa [hreceived]⟩

theorem frugal_of_not_isRead {evs : List (Event E)} (h : ∀ e ∈ evs, ¬e.IsRead) : Frugal w evs :=
  @Frugal.append_right _ _ w [] evs ⟨Nat.zero_le _, Nat.zero_le _⟩ h

theorem connect_frugal (hhonest : p.Honest) (htimely : p.Timely) (options : ConnectOptions)
    (w : World σ E) :
    ∃ evs, (connect p options w).2.log = w.log ++ evs ∧ Frugal (w.opened options) evs := by
  have hne := connect_ne_panic hhonest htimely options w
  rcases connect_cases p options w with
    ⟨-, e, b, -, hc⟩ | ⟨-, ⟨e, s, -, hc⟩ | ⟨s, -, hc⟩⟩
  · rw [hc]
    exact ⟨[], (List.append_nil _).symm, frugal_of_not_isRead nofun⟩
  · rw [hc]
    exact ⟨_, rfl, frugal_of_not_isRead (List.forall_mem_singleton.mpr id)⟩
  · rw [hc] at hne ⊢
    obtain ⟨evs, hlog, hfrugal⟩ := readConnack_frugal valid_greeted state_greeted hne
    have hgreet : ∀ e ∈ [Event.wrote .transportConnected (connectBytes options) (.ok ()),
        .clock (p.now s).1], ¬(e : Event E).IsRead :=
      List.forall_mem_cons.mpr ⟨id, List.forall_mem_singleton.mpr id⟩
    refine ⟨_, ?_, hfrugal.append_left hgreet rfl⟩
    rw [hlog, log_greeted, List.append_assoc]

/-- The world in which a call begins to read: a connect forgets what was received. -/
def Call.begun (call : Call) (w : World σ E) : World σ E :=
  match call.connects with
  | some options => w.opened options
  | none => w

/-- How often a call reads at most: once more than there are free bytes when it
begins to. -/
def Call.maxReads (call : Call) (w : World σ E) : Nat :=
  match call with
  | .connect _ | .connectSubscribe _ _ | .nextNotification => (call.begun w).room + 1
  | .completeNotification _ | .send _ | .isDisconnected => 0

/-- What a call asked of the platform: it read at most as often as it may, and
received only what there was room for. -/
theorem perform_reads (hhonest : p.Honest) (htimely : p.Timely) (hv : w.Valid) (call : Call) :
    ∃ evs, (perform p call w).2.log = w.log ++ evs ∧ (timeouts evs).length ≤ call.maxReads w ∧
      (received evs).length ≤ (call.begun w).room := by
  have hquiet : ∀ w' : World σ E, (∃ evs, w'.log = w.log ++ evs ∧ ∀ e ∈ evs, ¬e.IsRead) →
      ∃ evs, w'.log = w.log ++ evs ∧ (timeouts evs).length ≤ 0 ∧
        (received evs).length ≤ w.room := by
    rintro w' ⟨evs, hlog, hevs⟩
    refine ⟨evs, hlog, ?_, ?_⟩
    · rw [timeouts_of_not_isRead hevs]
      exact Nat.le_refl _
    · rw [received_of_not_isRead hevs]
      exact Nat.zero_le _
  have hconnects : ∀ options, call.connects = some options →
      ∃ evs, (perform p call w).2.log = w.log ++ evs ∧ Frugal (w.opened options) evs := by
    intro options hc
    obtain ⟨evs, hlog, hfrugal⟩ := connect_frugal hhonest htimely options w
    rw [perform_of_connects p hc]
    rcases hconnect : connect p options w with ⟨ack | e | _, t⟩
    · rw [hconnect] at hlog
      obtain ⟨_, _, _, ha⟩ := accepted_of_ok p hconnect
      obtain ⟨evs', hevs'⟩ := (mutes p).behindConnect call ack t ha.valid
      rw [Act.bind_of_ok hconnect]
      refine ⟨evs ++ evs', ?_, hfrugal.append_right hevs'.noReads⟩
      rw [hevs'.log, hlog, List.append_assoc]
    · rw [hconnect] at hlog
      rw [Act.bind_of_err hconnect]
      exact ⟨evs, hlog, hfrugal⟩
    · exact absurd (congrArg Prod.fst hconnect) (connect_ne_panic hhonest htimely options w)
  cases call with
  | connect options | connectSubscribe options _ =>
    obtain ⟨evs, hlog, hreads, hfits⟩ := hconnects options rfl
    exact ⟨evs, hlog, hreads.trans (Nat.succ_le_succ hfits), hfits⟩
  | nextNotification =>
    obtain ⟨evs, hlog, hreads, hfits⟩ := nextNotification_frugal hhonest hv
    rw [perform, Act.bind_pure_snd]
    exact ⟨evs, hlog, hreads.trans (Nat.succ_le_succ hfits), hfits⟩
  | completeNotification completion =>
    refine hquiet _ ?_
    rcases completeNotification_cases p completion w with ⟨hno, -⟩ | ⟨b, hb, hc⟩
    · exact absurd hv hno
    · obtain ⟨evs, hevs⟩ := (mutes p).performAction completion.action (w.withRx b) (hb hv).1
      refine ⟨evs, ?_, hevs.noReads⟩
      rw [← hc] at hevs
      exact (congrArg World.log Act.bind_pure_snd).trans hevs.log
  | send packet =>
    obtain ⟨evs, hevs⟩ := (mutes p).performSend packet w hv
    exact hquiet _ ⟨evs, (congrArg World.log Act.bind_pure_snd).trans hevs.log, hevs.noReads⟩
  | isDisconnected => exact hquiet _ ⟨[], (List.append_nil _).symm, List.forall_mem_nil _⟩

/-! ### The loops end -/

/-- A turn of `next_notification` that goes on leaves less room. -/
theorem nextNotificationTurn_step {t : World σ E} (hv : w.Valid)
    (hturn : nextNotificationTurn p w = (.ok none, t)) :
    t.Valid ∧ t.capacity - t.content.length < w.capacity - w.content.length := by
  have h := nextTurn p hv
  rw [hturn] at h
  cases h with
  | more hc => exact ⟨hc.valid, hc.room_lt⟩

/-- The bound on the turns of `next_notification` never runs out. -/
theorem nextNotification_loop (hv : w.Valid) {n : Nat} (hn : w.room + 1 ≤ n) :
    Act.loop (nextNotificationTurn p) n w = Act.loop (nextNotificationTurn p) (w.room + 1) w := by
  refine Act.loop_of_le (fun _ _ => nextNotificationTurn_step) _ w hv ?_ n hn
  rw [World.room, (length_content hv).1]
  exact Nat.lt_succ_self _

/-- The bound on the turns of `read_connack` never runs out. -/
theorem readConnack_loop (hv : w.Valid) (hs : w.state = .transportConnected) {n : Nat}
    (hn : w.room + 1 ≤ n) : Act.loop (readConnackTurn p) n w = readConnack p w := by
  rw [readConnack, Act.bind_of_ok (turns_apply hv)]
  refine Act.loop_of_le (fun _ _ => readConnackTurn_step p) _ w ⟨hv, hs⟩ (Nat.lt_succ_self _) n ?_
  rwa [(length_content hv).1]

/-! ### Runs -/

/-- Every call keeps the used bytes within the receive buffer, even if it panics. -/
theorem perform_logged (hhonest : p.Honest) (htimely : p.Timely) (hv : w.Valid) (call : Call) :
    ∃ evs, Logged w evs (perform p call w).2 := by
  by_cases hr : (perform p call w).1 = .panic
  · obtain ⟨hpublishes, -⟩ := (perform_eq_panic p hhonest htimely hv call).mp hr
    cases call with
    | send packet =>
      obtain ⟨evs, hevs⟩ := (mutes p).performSend packet w hv
      rw [perform, Act.bind_pure_snd]
      exact ⟨evs, hevs.toLogged⟩
    | connect | connectSubscribe | nextNotification | completeNotification | isDisconnected =>
      exact hpublishes.elim
  · obtain ⟨evs, hevs, -⟩ := perform_handed p call hv hr
    exact ⟨evs, hevs.toLogged⟩

theorem performAll_logged (hhonest : p.Honest) (htimely : p.Timely) :
    ∀ (calls : List Call) {w : World σ E}, w.Valid →
      ∃ evs, Logged w evs (performAll p calls w) := by
  intro calls
  induction calls with
  | nil => exact fun hv => ⟨[], .refl hv⟩
  | cons call calls ih =>
    intro w hv
    obtain ⟨evs, hevs⟩ := perform_logged hhonest htimely hv call
    obtain ⟨evs', hevs'⟩ := ih hevs.valid
    exact ⟨evs ++ evs', hevs.trans hevs'⟩

/-- What is left of the used bytes when the first `k` of them are removed. -/
theorem removePrefix_left (hv : w.Valid) (k : Nat) :
    ∃ b, (Buffer.removePrefix k : Act Buffer (Error E) Unit) w.client.rxBuffer = (.ok (), b) ∧
      b.used = w.client.rxBuffer.used - min k w.client.rxBuffer.used ∧
      b.capacity = w.capacity ∧ b.content = w.content.drop (min k w.client.rxBuffer.used) := by
  obtain ⟨b, hb, hvalid, hcontent, hcap⟩ := @Buffer.removePrefix_spec (Error E) _ hv k
  have hlen := (length_content hv).1
  have hdrop : w.content.drop (min k w.client.rxBuffer.used) = w.content.drop k := by
    rw [← hlen, ← List.drop_eq_drop_min]
  refine ⟨b, hb, ?_, hcap, hcontent.trans hdrop.symm⟩
  rw [← Buffer.length_content hvalid, hcontent, List.length_drop]
  change w.content.length - k = _
  omega

theorem completeNotification_content (completion : NotificationCompletion) (hv : w.Valid) :
    (completeNotification p completion w).2.content = w.content.drop completion.taken := by
  obtain ⟨t, evs, hc, ha⟩ := @completeNotification_answering _ _ p _ completion hv
  have hsilent := ha.silent hc.valid
  rw [hsilent.content, hsilent.received, List.append_nil, hc.content]

/-- On a platform that keeps its contract, in every run from a new client: the
used bytes are within the receive buffer; removing a prefix leaves the other used
bytes, and so does every completion, of which none panics; the only calls that
panic publish with a tx buffer of less than five bytes; every call reads at most
as often as it may, and receives what there is room for; and the loops end. -/
theorem receive_bounded {p : Platform σ E} (hhonest : p.Honest) (htimely : p.Timely)
    (txBuffer rxBuffer : List UInt8) (s : σ) (calls : List Call) :
    let w := performAll p calls ⟨new txBuffer rxBuffer, s, []⟩
    w.client.rxBuffer.used ≤ w.capacity ∧ w.capacity = rxBuffer.length ∧
    (∀ k, ∃ b,
      (Buffer.removePrefix k : Act Buffer (Error E) Unit) w.client.rxBuffer = (.ok (), b) ∧
      b.used = w.client.rxBuffer.used - min k w.client.rxBuffer.used ∧
      b.capacity = w.capacity ∧ b.content = w.content.drop (min k w.client.rxBuffer.used)) ∧
    (∀ completion, (completeNotification p completion w).1 ≠ .panic ∧
      (completeNotification p completion w).2.content = w.content.drop completion.taken) ∧
    (∀ call, (perform p call w).1 = .panic ↔ call.Publishes ∧ w.client.txBuffer.length < 5) ∧
    (∀ call : Call, ∃ evs, (perform p call w).2.log = w.log ++ evs ∧
      (timeouts evs).length ≤ call.maxReads w ∧ (received evs).length ≤ (call.begun w).room) ∧
    (∀ n, w.room + 1 ≤ n → Act.loop (nextNotificationTurn p) n w =
      Act.loop (nextNotificationTurn p) (w.room + 1) w) ∧
    ∀ options now s₁ s₂ n, w.capacity + 1 ≤ n →
      Act.loop (readConnackTurn p) n (w.greeted options now s₁ s₂) =
        readConnack p (w.greeted options now s₁ s₂) := by
  intro w
  obtain ⟨evs, hlogged⟩ := performAll_logged hhonest htimely calls
    (show World.Valid ⟨new txBuffer rxBuffer, s, []⟩ from Nat.zero_le _)
  have hv : w.Valid := hlogged.valid
  refine ⟨hv, hlogged.capacity, removePrefix_left hv, fun completion =>
    ⟨completeNotification_ne_panic p completion hv, completeNotification_content completion hv⟩,
    perform_eq_panic p hhonest htimely hv, perform_reads hhonest htimely hv,
    fun n => nextNotification_loop hv, fun options now s₁ s₂ n hn => ?_⟩
  exact readConnack_loop valid_greeted state_greeted hn

/-- A platform on a byte stream that reports the end of the stream where
`streamPlatform` times out without a timeout. -/
def endingPlatform (chunk : Nat) : Platform (List UInt8) Unit :=
  { streamPlatform chunk with
    readSome := fun buf timeout stream =>
      if stream = [] ∧ timeout = none then ((.ok (some 0), buf), stream)
      else (streamPlatform chunk).readSome buf timeout stream
    length_readSome := fun buf timeout stream => by
      split
      · rfl
      · exact (streamPlatform chunk).length_readSome buf timeout stream }

theorem honest_endingPlatform (chunk : Nat) : (endingPlatform chunk).Honest := by
  intro buf timeout stream n hn
  simp only [endingPlatform, streamPlatform] at hn
  split at hn
  · cases hn
    exact Nat.zero_le _
  · split at hn
    · cases hn
    · cases hn
      omega

theorem timely_endingPlatform (chunk : Nat) : (endingPlatform chunk).Timely := by
  intro buf stream
  simp only [endingPlatform, streamPlatform]
  split
  · nofun
  · rename_i hopen
    rw [if_neg fun hend => hopen ⟨hend, trivial⟩]
    nofun

/-- A notification that is completed twice. -/
theorem receive_bounded_repeated :
    let options : ConnectOptions := ⟨"client", none, none, 10, true⟩
    let completion : NotificationCompletion := ⟨6, .none⟩
    let calls : List Call := [.connect options, .nextNotification,
      .completeNotification completion, .completeNotification completion, .nextNotification]
    let stream : List UInt8 := [0x20, 2, 0, 0, 0x30, 4, 0, 1, 97, 98]
    let w := performAll (endingPlatform 4) calls
      ⟨new (List.replicate 32 0) (List.replicate 8 0), stream, []⟩
    w.client.rxBuffer.used ≤ w.capacity ∧ w.capacity = (List.replicate 8 (0 : UInt8)).length := by
  intro options completion calls stream
  obtain ⟨hused, hcap, -⟩ := receive_bounded (honest_endingPlatform 4) (timely_endingPlatform 4)
    (List.replicate 32 0) (List.replicate 8 0) stream calls
  exact ⟨hused, hcap⟩

end Bounded

end NanoClient

end Umqtt
