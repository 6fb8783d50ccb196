/-
Umqtt/NanoClient/Deadline.lean

The keep-alive deadline.

The deadline is set behind every successful write, cleared when a transport is
opened, and read before every read of `next_notification`.  `Timed` follows it
across any calls: it is as it was, or the last successful write moved it.  A
connect that fails to encode its CONNECT has cleared it by then, and left a
client that takes the next CONNACK for its own; in all other runs, the deadline
of a connected client is that of its last successful connect
(`keepAlive_deadline`).
-/
import Umqtt.NanoClient.Across
import Umqtt.NanoClient.KeepAlive

namespace Umqtt

open Effects Wire

/-! ### Points in time -/

/-- A keep-alive of so many seconds. -/
def Duration.ofKeepAlive (keepAlive : UInt16) : Duration :=
  Duration.fromSecs (UInt64.ofNat keepAlive.toNat)

theorem toNat_keepAlive (keepAlive : UInt16) :
    (UInt64.ofNat keepAlive.toNat).toNat = keepAlive.toNat :=
  UInt64.toNat_ofNat_of_lt' (lt_trans keepAlive.toNat_lt (by decide))

theorem Duration.asMillis_ofKeepAlive (keepAlive : UInt16) :
    (Duration.ofKeepAlive keepAlive).asMillis = 1000 * keepAlive.toNat := by
  rw [Duration.ofKeepAlive, Duration.asMillis_fromSecs, toNat_keepAlive]
  exact Nat.mul_comm _ _

theorem Duration.isPositive_ofKeepAlive {keepAlive : UInt16} :
    (Duration.ofKeepAlive keepAlive).isPositive = true ↔ keepAlive ≠ 0 := by
  have hzero : UInt64.ofNat keepAlive.toNat = 0 ↔ keepAlive = 0 := by
    rw [← UInt64.toNat_inj, toNat_keepAlive, ← UInt16.toNat_inj]
    rfl
  simp only [Duration.isPositive, Duration.ofKeepAlive, Duration.fromSecs, bne_self_eq_false,
    Bool.or_false, bne_iff_ne, ne_eq, hzero]

namespace NanoClient

section Records

variable {E : Type}

/-- A write that succeeded. -/
def Event.Sends : Event E → Prop
  | .wrote _ _ (.ok _) => True
  | _ => False

/-- The point in time that a look at the clock found. -/
def Event.time : Event E → Option Instant
  | .clock now => some now
  | _ => none

/-- What all looks at the clock of a record found. -/
def clocks (log : List (Event E)) : List Instant := log.filterMap Event.time

/-- The clock does not go back, and is far enough from its end for every
keep-alive. -/
def Steady (times : List Instant) : Prop :=
  times.Pairwise (fun t t' => t.milliseconds ≤ t'.milliseconds) ∧
    ∀ t ∈ times, t.milliseconds.toNat < 2 ^ 64 - 65535000

instance (times : List Instant) : Decidable (Steady times) := inferInstanceAs (Decidable (_ ∧ _))

/-- The clock was at `t` behind the last write that succeeded. -/
def LastSent (evs : List (Event E)) (t : Instant) : Prop :=
  ∃ before state buf after, evs = before ++ .wrote state buf (.ok ()) :: .clock t :: after ∧
    ∀ e ∈ after, ¬e.Sends

variable {evs evs' : List (Event E)} {t : Instant}

theorem LastSent.append_left (h : LastSent evs' t) (evs : List (Event E)) :
    LastSent (evs ++ evs') t := by
  obtain ⟨before, state, buf, after, rfl, hafter⟩ := h
  exact ⟨evs ++ before, state, buf, after, (List.append_assoc _ _ _).symm, hafter⟩

theorem LastSent.append_right (h : LastSent evs t) (hevs' : ∀ e ∈ evs', ¬e.Sends) :
    LastSent (evs ++ evs') t := by
  obtain ⟨before, state, buf, after, rfl, hafter⟩ := h
  exact ⟨before, state, buf, after ++ evs', by simp, List.forall_mem_append.mpr ⟨hafter, hevs'⟩⟩

theorem LastSent.sends (h : LastSent evs t) : ∃ e ∈ evs, e.Sends := by
  obtain ⟨before, state, buf, after, rfl, -⟩ := h
  exact ⟨.wrote state buf (.ok ()), by simp, trivial⟩

theorem LastSent.mem_clocks (h : LastSent evs t) : t ∈ clocks evs := by
  obtain ⟨before, state, buf, after, rfl, -⟩ := h
  exact List.mem_filterMap.mpr ⟨.clock t, by simp, rfl⟩

end Records

section Deadline

variable {σ E : Type}

def World.keepAlive (w : World σ E) : Duration := w.client.transportClient.keepAlive

def World.packetSendAt (w : World σ E) : Instant := w.client.transportClient.packetSendAt

/-! ### Calls -/

/-- From `w` to `w'`, with the keep-alive `k`, the calls `evs` were made.  The
deadline is as it was, or the last write that succeeded moved it; and reads
waited as `waits` says. -/
structure Timed (k : Duration) (waits : Option Duration → Prop) (w : World σ E)
    (evs : List (Event E)) (w' : World σ E) : Prop where
  log : w'.log = w.log ++ evs
  keepAlive : w'.keepAlive = k
  deadline : ((∀ e ∈ evs, ¬e.Sends) ∧ w'.packetSendAt = w.packetSendAt) ∨
    ∃ t, LastSent evs t ∧ (k.isPositive = true → w'.packetSendAt = t.add k)
  waits : ∀ timeout ∈ timeouts evs, waits timeout

/-- From a world with the keep-alive `k` on. -/
def Times (k : Duration) (waits : Option Duration → Prop) (w w' : World σ E) : Prop :=
  w.keepAlive = k → ∃ evs, Timed k waits w evs w'

variable {k : Duration} {waits : Option Duration → Prop} {w t w' : World σ E}
  {evs evs' : List (Event E)}

theorem Timed.trans (h : Timed k waits w evs t) (h' : Timed k waits t evs' w') :
    Timed k waits w (evs ++ evs') w' where
  log := by rw [h'.log, h.log, List.append_assoc]
  keepAlive := h'.keepAlive
  deadline := by
    rcases h'.deadline with ⟨hnone', hsame'⟩ | ⟨now, hlast, hmoved⟩
    · rcases h.deadline with ⟨hnone, hsame⟩ | ⟨now, hlast, hmoved⟩
      · exact .inl ⟨List.forall_mem_append.mpr ⟨hnone, hnone'⟩, hsame'.trans hsame⟩
      · exact .inr ⟨now, hlast.append_right hnone', fun hk => hsame'.trans (hmoved hk)⟩
    · exact .inr ⟨now, hlast.append_left _, hmoved⟩
  waits := by
    rw [timeouts_append]
    exact List.forall_mem_append.mpr ⟨h.waits, h'.waits⟩

/-- Calls that write nothing and leave the deadline alone. -/
theorem timed_of_not_sends (hlog : w'.log = w.log ++ evs) (hevs : ∀ e ∈ evs, ¬e.Sends)
    (hkeep : w'.keepAlive = k) (hsame : w'.packetSendAt = w.packetSendAt)
    (hwaits : ∀ timeout ∈ timeouts evs, waits timeout) : Timed k waits w evs w' :=
  ⟨hlog, hkeep, .inl ⟨hevs, hsame⟩, hwaits⟩

/-- What asks nothing of the platform, and leaves the deadline alone. -/
theorem times_of_eq (hlog : w'.log = w.log) (hkeep : w'.keepAlive = w.keepAlive)
    (hsame : w'.packetSendAt = w.packetSendAt) : Times k waits w w' := fun hk =>
  ⟨[], timed_of_not_sends (hlog.trans (List.append_nil _).symm) nofun (hkeep.trans hk) hsame nofun⟩

theorem Times.refl (w : World σ E) : Times k waits w w := times_of_eq rfl rfl rfl

theorem Times.trans (w t u : World σ E) (h : Times k waits w t) (h' : Times k waits t u) :
    Times k waits w u := by
  intro hk
  obtain ⟨evs, hevs⟩ := h hk
  obtain ⟨evs', hevs'⟩ := h' hevs.keepAlive
  exact ⟨evs ++ evs', hevs.trans hevs'⟩

variable (p : Platform σ E)

/-- Behind a write that succeeded, the deadline is moved. -/
theorem times_writeBuffer (buf : List UInt8) : Act.Leads (Times k waits) (writeBuffer p buf) := by
  intro w hk
  have h := bufferWritten p buf w
  generalize (writeBuffer p buf w).1 = r at h
  generalize (writeBuffer p buf w).2 = w' at h ⊢
  cases h with
  | closed => exact Times.refl w hk
  -- `on_packet_sent` with the clock reading behind the write
  | @sent s s' now =>
    refine ⟨[.wrote w.state buf (.ok ()), .clock now], List.append_assoc _ _ _, ?_,
      .inr ⟨now, ⟨[], w.state, buf, [], rfl, nofun⟩, fun hpos => ?_⟩, nofun⟩
    · show (TransportClient.onPacketSent w.client.transportClient now).keepAlive = k
      unfold TransportClient.onPacketSent
      split <;> exact hk
    · obtain rfl : w.client.transportClient.keepAlive = k := hk
      show (TransportClient.onPacketSent w.client.transportClient now).packetSendAt = _
      rw [TransportClient.onPacketSent, if_pos hpos]
  | broken =>
    exact ⟨_, timed_of_not_sends rfl (List.forall_mem_singleton.mpr id) hk rfl nofun⟩

/-- A read leaves the deadline alone. -/
theorem times_read {timeout : Option Duration} (hwaits : waits timeout) :
    Act.Leads (Times k waits) (readSomeWithTimeout p timeout) := by
  intro w hk
  have h := someRead p timeout w
  generalize (readSomeWithTimeout p timeout w).1 = r at h
  generalize (readSomeWithTimeout p timeout w).2 = w' at h ⊢
  have hread : ∀ (result : Except E (Option Nat)) (buf : List UInt8) (w' : World σ E),
      w'.log = w.log ++ [.read timeout result buf] → w'.keepAlive = k →
      w'.packetSendAt = w.packetSendAt → ∃ evs, Timed k waits w evs w' :=
    fun result buf w' hlog hkeep hsame => ⟨_, timed_of_not_sends hlog
      (List.forall_mem_singleton.mpr id) hkeep hsame (List.forall_mem_singleton.mpr hwaits)⟩
  cases h with
  | invalid => exact Times.refl w hk
  | idle | eof | failed | bytes => exact hread _ _ _ rfl hk rfl

theorem times_onBytesReceived :
    Act.Leads (Times k waits) (onBytesReceived : Act (World σ E) (Error E) _) := by
  refine .bind Times.trans (fun w => Times.refl w) fun data w => ?_
  have h := TransportClient.received w.client.transportClient data
  refine times_of_eq rfl ?_ ?_
  · show (TransportClient.onBytesReceived data w.client.transportClient).2.keepAlive = _
    generalize (TransportClient.onBytesReceived data w.client.transportClient).1 = r at h
    generalize (TransportClient.onBytesReceived data w.client.transportClient).2 = c at h ⊢
    cases h <;> rfl
  · show (TransportClient.onBytesReceived data w.client.transportClient).2.packetSendAt = _
    generalize (TransportClient.onBytesReceived data w.client.transportClient).1 = r at h
    generalize (TransportClient.onBytesReceived data w.client.transportClient).2 = c at h ⊢
    cases h <;> rfl

theorem acrossConnect_times (hnone : waits none) : AcrossConnect p (Times k waits) where
  refl := Times.refl
  trans := Times.trans
  onTx _ _ := times_of_eq rfl rfl rfl
  writeBuffer := times_writeBuffer p
  read := times_read p hnone
  onBytesReceived := times_onBytesReceived
  removePrefix _ _ := times_of_eq rfl rfl rfl
  closed _ := times_of_eq rfl rfl rfl

/-! ### The operations -/

variable {p}

/-- A turn of `next_notification` waits until the next ping. -/
theorem times_nextNotificationTurn
    (hwaits : ∀ timeout, (timeout = none ∨ k.isPositive = true) → waits timeout) :
    Act.Leads (Times k waits) (nextNotificationTurn p) := by
  intro w hk
  rcases hn : p.now w.platform with ⟨now, s⟩
  have htimeout : waits (w.client.transportClient.nextPingIn now) := by
    refine hwaits _ ?_
    obtain rfl : w.client.transportClient.keepAlive = k := hk
    rw [TransportClient.nextPingIn]
    split
    · exact .inr ‹_›
    · exact .inl rfl
  have hlook : Timed k waits w [.clock now] (w.clocked now s) :=
    timed_of_not_sends rfl (List.forall_mem_singleton.mpr id) hk rfl (List.forall_mem_nil _)
  have hbehind : ∀ r : Option Nat, Act.Leads (Times k waits)
      (behindRead r : Act (World σ E) (Error E) (Option (Option ClientNotification))) := by
    rintro (- | n)
    · exact .pure Times.refl _
    · refine .bind Times.trans (fun w => Times.refl w) fun used => .bind Times.trans
        (.gets Times.refl _) fun capacity => ?_
      cases check used capacity with
      | ok => exact .pure Times.refl _
      | err => exact .pure Times.refl _
      | panic => exact Times.refl
  obtain ⟨evs, hevs⟩ :=
    Act.Leads.bind Times.trans (times_read p htimeout) hbehind (w.clocked now s) hk
  rw [nextNotificationTurn_eq p hn]
  exact ⟨_, hlook.trans hevs⟩

theorem times_takeNotification :
    Act.Leads (Times k waits)
      (takeNotification : Act (World σ E) (Error E) ClientNotification) := by
  refine .bind Times.trans times_onBytesReceived fun received => ?_
  rcases received with - | ⟨notification, taken⟩
  · exact .fail Times.refl _
  · exact .pure Times.refl _

theorem times_nextNotification
    (hwaits : ∀ timeout, (timeout = none ∨ k.isPositive = true) → waits timeout) :
    Act.Leads (Times k waits) (nextNotification p) := by
  refine .bind Times.trans (.gets Times.refl _) fun closed => .ite (.fail Times.refl _) ?_
  refine .bind Times.trans (.gets Times.refl _) fun n => .bind Times.trans
    (.loop Times.refl Times.trans (times_nextNotificationTurn hwaits) n) fun r => ?_
  cases r with
  | some notification => exact .pure Times.refl _
  | none => exact times_takeNotification

/-- A call that does not connect keeps to the deadline of its epoch. -/
theorem perform_timed {call : Call} (hc : call.connects = none) (w : World σ E) :
    ∃ evs, Timed w.keepAlive (fun timeout => timeout = none ∨ w.keepAlive.isPositive = true) w evs
      (perform p call w).2 := by
  have hacross := @acrossConnect_times σ E w.keepAlive
    (fun timeout => timeout = none ∨ w.keepAlive.isPositive = true) p (.inl rfl)
  cases call with
  | connect | connectSubscribe => cases hc
  | nextNotification =>
    rw [perform, Act.bind_pure_snd]
    exact times_nextNotification (fun _ h => h) w rfl
  | completeNotification completion =>
    have h := hacross.completeNotification completion w rfl
    rwa [← @Act.bind_pure_snd _ _ _ _ _ fun _ => Value.unit] at h
  | send packet =>
    have h := hacross.performSend packet w rfl
    rwa [← @Act.bind_pure_snd _ _ _ _ _ fun _ => Value.unit] at h
  | isDisconnected => exact Times.refl w rfl

/-- A call that connects sets the keep-alive, and clears the deadline, before it
does anything else. -/
theorem perform_timed_of_connects {call : Call} {options : ConnectOptions}
    (hc : call.connects = some options) (w : World σ E) :
    ∃ evs, Timed (.ofKeepAlive options.keepAlive) (· = none) (w.opened options) evs
      (perform p call w).2 := by
  have hacross := @acrossConnect_times σ E (.ofKeepAlive options.keepAlive) (· = none) p rfl
  have hconnect : Act.Leads (Times (.ofKeepAlive options.keepAlive) (· = none))
      (do let outSize ← onTx (options.asConnect.write.mapErr .writeError)
          writeAll p outSize
          awaitConnack p : Act (World σ E) (Error E) ConnAck) :=
    .bind Times.trans (hacross.onTx _) fun _ =>
      .bind Times.trans (hacross.writeAll _) fun _ => hacross.awaitConnack
  have hall := hconnect.bind Times.trans (fun ack => hacross.behindConnect call ack)
    (w.opened options) rfl
  rw [perform_of_connects p hc]
  exact hall

theorem keepAlive_completeNotification (completion : NotificationCompletion) (w : World σ E) :
    (completeNotification p completion w).2.keepAlive = w.keepAlive := by
  obtain ⟨evs, hevs⟩ := @perform_timed σ E p (.completeNotification completion) rfl w
  rw [perform, Act.bind_pure_snd] at hevs
  exact hevs.keepAlive

/-! ### Runs -/

/-- A run of calls that all return, with its last call that connects and its last
one that did so successfully, each as its options and the world in which it
began. -/
inductive Tracked (p : Platform σ E) (w₀ : World σ E) : Option (ConnectOptions × World σ E) →
    Option (ConnectOptions × World σ E) → World σ E → Prop where
  | start : Tracked p w₀ none none w₀
  | accepted {last good : Option (ConnectOptions × World σ E)} {w w' : World σ E} {call : Call}
      {options : ConnectOptions} {ack : ConnAck} {r : Outcome (Error E) Value} :
      Tracked p w₀ last good w → call.connects = some options →
      (connect p options w).1 = .ok ack → perform p call w = (r, w') → r ≠ .panic →
      Tracked p w₀ (some (options, w)) (some (options, w)) w'
  | failed {last good : Option (ConnectOptions × World σ E)} {w w' : World σ E} {call : Call}
      {options : ConnectOptions} {r : Outcome (Error E) Value} :
      Tracked p w₀ last good w → call.connects = some options →
      (∀ ack, (connect p options w).1 ≠ .ok ack) → perform p call w = (r, w') → r ≠ .panic →
      Tracked p w₀ (some (options, w)) good w'
  | goes {last good : Option (ConnectOptions × World σ E)} {w w' : World σ E} {call : Call}
      {r : Outcome (Error E) Value} :
      Tracked p w₀ last good w → call.connects = none → perform p call w = (r, w') →
      r ≠ .panic → Tracked p w₀ last good w'

/-- The deadline since a connect that began in `start`: all calls since then kept
to it, and some write moved it. -/
def Dated (options : ConnectOptions) (start w : World σ E) : Prop :=
  ∃ evs t, Timed (.ofKeepAlive options.keepAlive) (fun _ => True) (start.opened options) evs w ∧
    LastSent evs t

theorem Timed.weaken {waits' : Option Duration → Prop} (h : Timed k waits w evs w')
    (hwaits : ∀ timeout, waits timeout → waits' timeout) : Timed k waits' w evs w' :=
  { h with waits := fun timeout ht => hwaits timeout (h.waits timeout ht) }

/-- A connect that is accepted has written its CONNECT. -/
theorem sends_of_connect_ok {call : Call} {options : ConnectOptions} {ack : ConnAck}
    (hc : call.connects = some options) (hack : (connect p options w).1 = .ok ack) {evs}
    (hevs : (perform p call w).2.log = w.log ++ evs) : ∃ e ∈ evs, e.Sends := by
  obtain ⟨t, hconnect⟩ := Act.fst_eq_ok.mp hack
  obtain ⟨_, _, _, ha⟩ := accepted_of_ok p hconnect
  have hacross := @acrossConnect_times σ E t.keepAlive (fun _ => True) p trivial
  obtain ⟨behind, hbehind⟩ := hacross.behindConnect call ack t rfl
  rw [perform_of_connects p hc, Act.bind_of_ok hconnect, hbehind.log, ha.log,
    List.append_assoc] at hevs
  rw [← List.append_cancel_left hevs]
  exact ⟨.wrote .transportConnected (connectBytes options) (.ok ()), List.mem_append_left _
    (List.mem_cons_self), trivial⟩

/-- The deadline behind a connect that is accepted. -/
theorem dated_of_connect_ok {call : Call} {options : ConnectOptions} {ack : ConnAck}
    (hc : call.connects = some options) (hack : (connect p options w).1 = .ok ack) :
    Dated options w (perform p call w).2 := by
  obtain ⟨evs, hevs⟩ := @perform_timed_of_connects σ E p call options hc w
  obtain ⟨e, he, hsends⟩ := sends_of_connect_ok hc hack hevs.log
  rcases hevs.deadline with ⟨hnone, -⟩ | ⟨t, hlast, -⟩
  · exact absurd hsends (hnone e he)
  · exact ⟨evs, t, hevs.weaken fun _ _ => trivial, hlast⟩

/-- A call that does not connect keeps to the deadline of its epoch. -/
theorem Dated.perform {call : Call} {options : ConnectOptions} {start : World σ E}
    (h : Dated options start w) (hc : call.connects = none) :
    Dated options start (perform p call w).2 := by
  obtain ⟨evs, t, hevs, hlast⟩ := h
  obtain ⟨evs', hevs'⟩ := @perform_timed σ E p call hc w
  rw [hevs.keepAlive] at hevs'
  have hall := hevs.trans (hevs'.weaken fun _ _ => trivial)
  rcases hevs'.deadline with ⟨hnone, -⟩ | ⟨t', hlast', -⟩
  · exact ⟨_, t, hall, hlast.append_right hnone⟩
  · exact ⟨_, t', hall, hlast'.append_left evs⟩

/-- A call that connected successfully is one that connects. -/
theorem Tracked.last_ne_none {w₀ : World σ E} {last good : Option (ConnectOptions × World σ E)}
    (h : Tracked p w₀ last good w) (hgood : good ≠ none) : last ≠ none := by
  induction h with
  | start => exact absurd rfl hgood
  | accepted | failed => exact Option.some_ne_none _
  | goes _ _ _ _ ih => exact ih hgood

/-- If the last call that connects encoded its CONNECT, then the client is closed
or it is the last one that connected successfully. -/
theorem Tracked.dated {w₀ : World σ E} {last good : Option (ConnectOptions × World σ E)}
    (h : Tracked p w₀ last good w) {options : ConnectOptions} {start : World σ E}
    (hlast : last = some (options, start))
    (hfits : options.asConnect.Fits start.client.txBuffer.length) :
    w.state = .disconnected ∨ good = some (options, start) ∧ Dated options start w := by
  induction h with
  | start => cases hlast
  | accepted _ hc hack hp =>
    cases hlast
    have hdated := dated_of_connect_ok hc hack
    rw [hp] at hdated
    exact .inr ⟨rfl, hdated⟩
  | @failed _ _ w w' call _ r _ hc hno hp hr =>
    cases hlast
    rw [perform_of_connects p hc] at hp
    rcases hconnect : connect p options start with ⟨ack | e | _, t⟩
    · exact absurd (congrArg Prod.fst hconnect) (hno ack)
    · cases (Act.bind_of_err hconnect).symm.trans hp
      exact .inl (state_of_connect_err p hfits hconnect)
    · rw [Act.bind_apply, hconnect] at hp
      cases hp
      exact absurd rfl hr
  | @goes _ _ w w' call r _ hc hp _ ih =>
    rcases ih hlast with hs | ⟨hgood, hdated⟩
    -- a closed client stays closed, whatever bytes arrive
    · have hu := @perform_untouched σ E p w call hc hs
      rw [hp] at hu
      exact .inl hu.state
    · have hdated' := hdated.perform (p := p) hc
      rw [hp] at hdated'
      exact .inr ⟨hgood, hdated'⟩

/-! ### The deadline of a connected client -/

/-- A client whose last successful connect began in `start` keeps time: without a
keep-alive it waits without end; with one, a ping is due so long behind the last
write that succeeded since then; and of the calls `next`, none moves the deadline
that does not encode a CONNECT and writes nothing. -/
structure KeepsTime (p : Platform σ E) (next : Call → Prop) (keepAlive : UInt16)
    (start w : World σ E) : Prop where
  never : keepAlive = 0 → ∀ call,
    ∀ timeout ∈ timeouts ((perform p call w).2.log.drop w.log.length), timeout = none
  due : keepAlive ≠ 0 → ∃ t, LastSent (w.log.drop start.log.length) t ∧
    w.packetSendAt.milliseconds.toNat = t.milliseconds.toNat + 1000 * keepAlive.toNat ∧
    ∀ now, Steady (clocks w.log ++ [now]) → ∃ left,
      w.client.transportClient.nextPingIn now = some left ∧
      left.asMillis =
        t.milliseconds.toNat + 1000 * keepAlive.toNat - now.milliseconds.toNat ∧
      left.asMillis ≤ 1000 * keepAlive.toNat
  kept : ∀ call, next call →
    (call.connects = none ∨ ∃ e, (perform p call w).1 = .err (.writeError e)) →
    (∀ e ∈ (perform p call w).2.log.drop w.log.length, ¬e.Sends) →
    (perform p call w).2.packetSendAt = w.packetSendAt ∧
      (perform p call w).2.keepAlive = w.keepAlive

section KeepsTime

variable {options : ConnectOptions} {start : World σ E}

/-- A client without a keep-alive, and a client that connects, wait without end. -/
theorem waits_of_not_isPositive (hkeep : w.keepAlive.isPositive = false) (call : Call) :
    ∀ timeout ∈ timeouts ((perform p call w).2.log.drop w.log.length), timeout = none := by
  cases hc : call.connects with
  | none =>
    obtain ⟨evs, hevs⟩ := @perform_timed σ E p call hc w
    rw [hevs.log, List.drop_left]
    intro timeout ht
    rcases hevs.waits timeout ht with hnone | hpos
    · exact hnone
    · cases hkeep.symm.trans hpos
  | some options =>
    obtain ⟨evs, hevs⟩ := @perform_timed_of_connects σ E p call options hc w
    have hlog : (perform p call w).2.log = w.log ++ evs := hevs.log
    rw [hlog, List.drop_left]
    exact hevs.waits

theorem Dated.due (h : Dated options start w) (hkeep : options.keepAlive ≠ 0)
    (hsteady : Steady (clocks w.log)) :
    ∃ t, LastSent (w.log.drop start.log.length) t ∧
      w.packetSendAt.milliseconds.toNat = t.milliseconds.toNat + 1000 * options.keepAlive.toNat ∧
      ∀ now, Steady (clocks w.log ++ [now]) → ∃ left,
        w.client.transportClient.nextPingIn now = some left ∧
        left.asMillis =
          t.milliseconds.toNat + 1000 * options.keepAlive.toNat - now.milliseconds.toNat ∧
        left.asMillis ≤ 1000 * options.keepAlive.toNat := by
  obtain ⟨evs, t₀, hevs, ht₀⟩ := h
  have hlog : w.log = start.log ++ evs := hevs.log
  have hpos := Duration.isPositive_ofKeepAlive.mpr hkeep
  rcases hevs.deadline with ⟨hnone, -⟩ | ⟨t, hlast, hmoved⟩
  -- some write moved it, if only that of the CONNECT
  · obtain ⟨e, he, hsends⟩ := ht₀.sends
    exact absurd hsends (hnone e he)
  have hmem : t ∈ clocks w.log := by
    rw [hlog, clocks, List.filterMap_append]
    exact List.mem_append_right _ hlast.mem_clocks
  have hend := hsteady.2 t hmem
  have hmax := options.keepAlive.toNat_lt
  have hsend : w.packetSendAt.milliseconds.toNat =
      t.milliseconds.toNat + 1000 * options.keepAlive.toNat := by
    rw [hmoved hpos, Instant.toNat_add_of_lt (by rw [Duration.asMillis_ofKeepAlive]; omega),
      Duration.asMillis_ofKeepAlive]
  refine ⟨t, by rwa [hlog, List.drop_left], hsend, fun now hnow => ?_⟩
  have hle : t.milliseconds.toNat ≤ now.milliseconds.toNat := UInt64.le_iff_toNat_le.mp
    ((List.pairwise_append.mp hnow.1).2.2 t hmem now (List.mem_singleton_self now))
  have hleft := Instant.asMillis_since w.packetSendAt now
  rw [hsend] at hleft
  refine ⟨w.packetSendAt.since now, ?_, hleft, by omega⟩
  have hkeep' : w.client.transportClient.keepAlive.isPositive = true := 
    (congrArg Duration.isPositive hevs.keepAlive).trans hpos
  rw [TransportClient.nextPingIn, if_pos hkeep']
  rfl

/-- A call that writes nothing, and does not encode a CONNECT. -/
theorem perform_kept {call : Call}
    (hfits : ∀ options, call.connects = some options →
      options.asConnect.Fits w.client.txBuffer.length)
    (hcall : call.connects = none ∨ ∃ e, (perform p call w).1 = .err (.writeError e))
    (hnone : ∀ e ∈ (perform p call w).2.log.drop w.log.length, ¬e.Sends) :
    (perform p call w).2.packetSendAt = w.packetSendAt ∧
      (perform p call w).2.keepAlive = w.keepAlive := by
  cases hc : call.connects with
  | none =>
    obtain ⟨evs, hevs⟩ := @perform_timed σ E p call hc w
    rw [hevs.log, List.drop_left] at hnone
    rcases hevs.deadline with ⟨-, hsame⟩ | ⟨t, hlast, -⟩
    · exact ⟨hsame, hevs.keepAlive⟩
    · obtain ⟨e, he, hsends⟩ := hlast.sends
      exact absurd hsends (hnone e he)
  | some options =>
    obtain hno | ⟨e, he⟩ := hcall
    · cases hno.symm.trans hc
    -- the CONNECT is encoded, so that what is not must be the SUBSCRIBE behind it
    rcases hconnect : connect p options w with ⟨ack | e' | _, t⟩
    · obtain ⟨evs, hevs⟩ := @perform_timed_of_connects σ E p call options hc w
      have hlog : (perform p call w).2.log = w.log ++ evs := hevs.log
      obtain ⟨e, he, hsends⟩ := sends_of_connect_ok hc (congrArg Prod.fst hconnect) hlog
      rw [hlog, List.drop_left] at hnone
      exact absurd hsends (hnone e he)
    · rw [perform_of_connects p hc, Act.bind_of_err hconnect] at he
      cases he
      exact absurd (congrArg Prod.fst hconnect) (connect_ne_writeError p (hfits options hc) e)
    · rw [perform_of_connects p hc, Act.bind_apply, hconnect] at he
      cases he

end KeepsTime

/-- In every run from a new client, on a clock that does not go back and stays
clear of its end: if the last call that connects encoded its CONNECT, a connected
client keeps the time of its last successful connect. -/
theorem keepAlive_deadline {p : Platform σ E} {txBuffer rxBuffer : List UInt8} {s : σ}
    {last : Option (ConnectOptions × World σ E)} {options : ConnectOptions} {start w : World σ E}
    (hrun : Tracked p ⟨new txBuffer rxBuffer, s, []⟩ last (some (options, start)) w)
    (hs : w.state = .connected) (hsteady : Steady (clocks w.log))
    (hfits : ∀ o t, last = some (o, t) → o.asConnect.Fits t.client.txBuffer.length) :
    KeepsTime p (fun call => ∀ o, call.connects = some o →
      o.asConnect.Fits w.client.txBuffer.length) options.keepAlive start w := by
  have hdated : Dated options start w := by
    cases hlast : last with
    | none => exact absurd hlast (hrun.last_ne_none (Option.some_ne_none _))
    | some x =>
      obtain ⟨o, t⟩ := x
      rcases hrun.dated hlast (hfits o t hlast) with hclosed | ⟨hgood, hdated⟩
      · cases hs.symm.trans hclosed
      · cases hgood
        exact hdated
  have hkeep : w.keepAlive = .ofKeepAlive options.keepAlive := by
    obtain ⟨evs, t, hevs, -⟩ := hdated
    exact hevs.keepAlive
  refine ⟨fun hzero => waits_of_not_isPositive ?_, fun hne => hdated.due hne hsteady,
    fun call hfits hcall hnone => perform_kept hfits hcall hnone⟩
  rw [hkeep, hzero]
  rfl

/-- A keep-alive of ten seconds. -/
theorem keepAlive_deadline_ten :
    let options : ConnectOptions := ⟨"client", none, none, 10, true⟩
    let w₀ : World (List UInt8) Unit :=
      ⟨new (List.replicate 32 0) (List.replicate 16 0), [0x20, 2, 0, 0], []⟩
    let w := (perform (streamPlatform 4) (.connect options) w₀).2
    KeepsTime (streamPlatform 4) (fun call => ∀ o, call.connects = some o →
      o.asConnect.Fits w.client.txBuffer.length) options.keepAlive w₀ w := by
  intro options w₀ w
  have hrun : Tracked (streamPlatform 4) w₀ (some (options, w₀)) (some (options, w₀)) w :=
    @Tracked.accepted _ _ _ _ _ _ _ _ (.connect options) options ⟨false, .success⟩
      (perform (streamPlatform 4) (.connect options) w₀).1 .start rfl (by decide +kernel)
      Prod.mk.eta.symm (by decide +kernel)
  have hs : w.state = .connected := by decide +kernel
  have hsteady : Steady (clocks w.log) := by decide +kernel
  have hfits : options.asConnect.Fits w₀.client.txBuffer.length := by decide +kernel
  refine keepAlive_deadline hrun hs hsteady ?_
  rintro o t ⟨⟩
  exact hfits

/-- A second CONNECT that does not fit the tx buffer, and a CONNACK that comes
behind it. -/
theorem keepAlive_deadline_not_encoded :
    ¬∀ (σ E : Type) (p : Platform σ E) (txBuffer rxBuffer : List UInt8) (s : σ)
        (last : Option (ConnectOptions × World σ E)) (options : ConnectOptions)
        (start w : World σ E),
      Tracked p ⟨new txBuffer rxBuffer, s, []⟩ last (some (options, start)) w →
      w.state = .connected → Steady (clocks w.log) →
      KeepsTime p (fun _ => True) options.keepAlive start w := by
  intro h
  let p := streamPlatform 4
  let options : ConnectOptions := ⟨"client", none, none, 10, true⟩
  let larger : ConnectOptions := ⟨"a client with a longer name", none, none, 20, true⟩
  let w₀ : World (List UInt8) Unit :=
    ⟨new (List.replicate 32 0) (List.replicate 16 0), [0x20, 2, 0, 0, 0x20, 2, 0, 0], []⟩
  let w₁ := (perform p (.connect options) w₀).2
  let w₂ := (perform p (.connect larger) w₁).2
  let w₃ := (perform p .nextNotification w₂).2
  have h₁ : Tracked p w₀ (some (options, w₀)) (some (options, w₀)) w₁ :=
    @Tracked.accepted _ _ _ _ _ _ _ _ (.connect options) options ⟨false, .success⟩
      (perform p (.connect options) w₀).1 .start rfl (by decide +kernel) Prod.mk.eta.symm
      (by decide +kernel)
  have hno : (connect p larger w₁).1 = .err (.writeError .notEnoughCapacity) := by decide +kernel
  have h₂ : Tracked p w₀ (some (larger, w₁)) (some (options, w₀)) w₂ :=
    @Tracked.failed _ _ _ _ _ _ _ _ (.connect larger) larger
      (perform p (.connect larger) w₁).1 h₁ rfl (fun ack => by rw [hno]; nofun) Prod.mk.eta.symm
      (by decide +kernel)
  have h₃ : Tracked p w₀ (some (larger, w₁)) (some (options, w₀)) w₃ :=
    @Tracked.goes _ _ _ _ _ _ _ _ .nextNotification (perform p .nextNotification w₂).1 h₂ rfl
      Prod.mk.eta.symm (by decide +kernel)
  have hkeeps := h _ _ p _ _ _ _ options w₀ w₃ h₃ (by decide +kernel) (by decide +kernel)
  obtain ⟨t, -, hsend, -⟩ := hkeeps.due (by decide)
  have hcleared : w₃.packetSendAt.milliseconds.toNat = 0 := by decide +kernel
  have hten : 1000 * options.keepAlive.toNat = 10000 := by decide
  rw [hcleared, hten] at hsend
  omega

end Deadline

end NanoClient

end Umqtt
