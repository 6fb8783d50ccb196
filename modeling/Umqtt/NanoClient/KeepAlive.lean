/-
Umqtt/NanoClient/KeepAlive.lean

When `next_notification` asks for a ping.

The loop of `next_notification` does not look at the deadline itself: it turns
it into the timeout of a read, which is zero once the deadline has passed, and
asks for a ping only if the read times out.  A platform may return bytes for a
timeout of zero, and a broker that keeps sending then keeps the client from
pinging (`keepAlive_served`).
-/
import Umqtt.NanoClient.Bounded
import Umqtt.NanoClient.Outbound
import Umqtt.NanoClient.Polling
import Umqtt.NanoClient.Session

namespace Umqtt

open Effects Wire Relation

/-- A point in time is not before another iff nothing is left until it. -/
theorem Instant.since_eq_zero {a b : Instant} :
    a.since b = Duration.fromSecs 0 ↔ a.milliseconds ≤ b.milliseconds := by
  rw [UInt64.le_iff_toNat_le, ← Nat.sub_eq_zero_iff_le, ← toNat_saturatingSub, Instant.since]
  generalize saturatingSub a.milliseconds b.milliseconds = m
  constructor
  · intro h
    rw [← Duration.asMillis_fromMillis m, h]
    rfl
  · intro h
    obtain rfl : m = 0 := UInt64.toNat_inj.mp h
    rfl

namespace NanoClient

section KeepAlive

variable {σ E : Type} {p : Platform σ E} {w : World σ E}

/-- The clock is at or past the ping deadline. -/
def World.Overdue (w : World σ E) (now : Instant) : Prop :=
  w.client.transportClient.packetSendAt.milliseconds ≤ now.milliseconds

instance (w : World σ E) (now : Instant) : Decidable (w.Overdue now) :=
  inferInstanceAs (Decidable (_ ≤ _))

/-- With a keep-alive, nothing is left until the next ping iff it is overdue. -/
theorem nextPingIn_eq_zero (hkeep : w.client.transportClient.keepAlive.isPositive = true)
    (now : Instant) :
    w.client.transportClient.nextPingIn now = some (Duration.fromSecs 0) ↔ w.Overdue now := by
  rw [TransportClient.nextPingIn, if_pos hkeep, Option.some.injEq]
  exact Instant.since_eq_zero

/-- A call that finds the ping overdue asks for it. -/
def Pings (p : Platform σ E) (w : World σ E) : Prop :=
  ∀ now, w.Overdue now → .clock now ∈ (nextNotification p w).2.log.drop w.log.length →
    (nextNotification p w).1 = .ok .sendPing

/-- The platform lets an overdue ping through: whenever the call comes to a turn that
finds the clock at or past the deadline, its read, which is given a timeout of
zero, times out, or it brings bytes and no whole frame yet, and a later read of the
call times out before there is one. -/
def Relents (p : Platform σ E) (w : World σ E) : Prop :=
  ∀ x, ReflTransGen (p.Part w.client.transportClient.nextPingIn) w.inbound x →
    w.Overdue (p.now x.2).1 →
      p.TimesOut (fun _ => some (Duration.fromSecs 0)) x ∨
        ∃ y z, p.Part (fun _ => some (Duration.fromSecs 0)) x y ∧
          ReflTransGen (p.Part w.client.transportClient.nextPingIn) y z ∧
          p.TimesOut w.client.transportClient.nextPingIn z

/-- What an overdue turn is answered, it is answered to a timeout of zero. -/
theorem poll_of_overdue (hkeep : w.client.transportClient.keepAlive.isPositive = true)
    {x : Buffer × σ} (hover : w.Overdue (p.now x.2).1) :
    p.poll w.client.transportClient.nextPingIn x =
      p.poll (fun _ => some (Duration.fromSecs 0)) x := by
  rw [Platform.poll, Platform.poll, (nextPingIn_eq_zero hkeep _).mpr hover]

/-- A later read may be the one that times out, or the first. -/
theorem relents_iff (hkeep : w.client.transportClient.keepAlive.isPositive = true) :
    Relents p w ↔ ∀ x, ReflTransGen (p.Part w.client.transportClient.nextPingIn) w.inbound x →
      w.Overdue (p.now x.2).1 →
        ∃ z, ReflTransGen (p.Part w.client.transportClient.nextPingIn) x z ∧
          p.TimesOut w.client.transportClient.nextPingIn z := by
  refine forall_congr' fun x => imp_congr_right fun _ => imp_congr_right fun hover => ?_
  have hpoll := poll_of_overdue hkeep hover
  constructor
  · rintro (htimes | ⟨y, z, ⟨hpart, hpos, hle, hno⟩, hz, htimes⟩)
    · rw [Platform.TimesOut, ← hpoll] at htimes
      exact ⟨x, .refl, htimes⟩
    · rw [← hpoll] at hpart
      exact ⟨z, .head ⟨hpart, hpos, hle, hno⟩ hz, htimes⟩
  · rintro ⟨z, hz, htimes⟩
    rcases hz.cases_head with rfl | ⟨y, ⟨hpart, hpos, hle, hno⟩, hz⟩
    · rw [Platform.TimesOut, hpoll] at htimes
      exact .inl htimes
    · rw [hpoll] at hpart
      exact .inr ⟨_, z, ⟨hpart, hpos, hle, hno⟩, hz, htimes⟩

/-- A call that finds the ping overdue asks for it iff the platform lets it through. -/
theorem pings_iff (hv : w.Valid) (hs : w.state ≠ .disconnected)
    (hkeep : w.client.transportClient.keepAlive.isPositive = true) :
    Pings p w ↔ Relents p w := by
  obtain ⟨evs, t, result, buf, ht, hlog, hlast, hping⟩ := @nextNotification_turns _ _ p w hv hs
  rw [relents_iff hkeep, Pings, hlog, List.drop_left, hping]
  constructor
  · intro h x hx hover
    refine ⟨t.inbound, Platform.reaches_last hx ht.reaches hlast, h _ hover ?_⟩
    rcases ht.reached hx with hmem | hreach
    · exact List.mem_append_left _ hmem
    · rcases hreach.cases_head with rfl | ⟨y, hy, -⟩
      · exact List.mem_append_right _ (List.mem_cons_self ..)
      · exact absurd hy (hlast y)
  · intro h now hover hmem
    obtain ⟨x, hx, rfl⟩ : ∃ x, ReflTransGen (p.Part w.client.transportClient.nextPingIn)
        w.inbound x ∧ (p.now x.2).1 = now := by
      rcases List.mem_append.mp hmem with hmem | hmem
      · exact ht.mem_clock hmem
      · rcases List.mem_cons.mp hmem with heq | hmem
        · cases heq
          exact ⟨t.inbound, ht.reaches, rfl⟩
        · cases List.mem_singleton.mp hmem
    obtain ⟨z, hz, htimes⟩ := h x hx hover
    rwa [htimes.eq_last (hx.trans hz) ht.reaches hlast] at htimes

/-- Completing a request for a ping writes a PINGREQ. -/
theorem completeNotification_sendPing (hs : w.state = .connected)
    (htx : 2 ≤ w.client.txBuffer.length) :
    ∃ result later, (completeNotification p ClientNotification.sendPing.complete w).2.log =
      w.log ++ .wrote .connected (frame 0xC0 []) result :: later := by
  have hlen : (frame 0xC0 []).length ≤ w.client.txBuffer.length := by
    rw [frame_of_lt (by decide)]
    exact htx
  have hsend : completeNotification p ClientNotification.sendPing.complete w =
      writeBuffer p (frame 0xC0 []) (w.withTx (overwrite w.client.txBuffer 0 (frame 0xC0 []))) :=
    sendPacket_of_le p (writes_writeEmpty 0xC0) hlen
  rw [hsend]
  generalize ht : w.withTx (overwrite w.client.txBuffer 0 (frame 0xC0 [])) = t
  have hlog : t.log = w.log := by rw [← ht]; rfl
  have hstate : t.state = .connected := by rw [← ht]; exact hs
  have h := bufferWritten p (frame 0xC0 []) t
  generalize (writeBuffer p (frame 0xC0 []) t).1 = r at h
  generalize (writeBuffer p (frame 0xC0 []) t).2 = w' at h ⊢
  rw [← hlog, ← hstate]
  cases h with
  | closed hclosed => cases hstate.symm.trans hclosed
  | sent => exact ⟨_, _, List.append_assoc _ _ _⟩
  | broken => exact ⟨_, _, rfl⟩

/-- In every connected state of a run, with a keep-alive: a turn that finds the ping
overdue gives its read a timeout of zero, and a call that finds the ping overdue
asks for it iff the platform lets it through.  A platform on which no read with a
timeout of zero brings anything always does.  Completing a request for a ping
writes one. -/
theorem keepAlive_served {txBuffer rxBuffer : List UInt8} {s : σ} {start : World σ E}
    (hrun : Epoch p ⟨new txBuffer rxBuffer, s, []⟩ start w) (hs : w.state = .connected)
    (hkeep : w.client.transportClient.keepAlive.isPositive = true) :
    (∀ now, w.client.transportClient.nextPingIn now = some (Duration.fromSecs 0) ↔
      w.Overdue now) ∧
    (∀ before now behind, (nextNotification p w).2.log.drop w.log.length =
        before ++ .clock now :: behind → w.Overdue now →
      ∃ result buf behind', behind = .read (some (Duration.fromSecs 0)) result buf :: behind') ∧
    (Pings p w ↔ Relents p w) ∧
    ((∀ buf s, (p.readSome buf (some (Duration.fromSecs 0)) s).1.1 = .ok none) → Pings p w) ∧
    ∀ w', nextNotification p w = (.ok .sendPing, w') → 2 ≤ w.client.txBuffer.length →
      ∃ result later, (completeNotification p ClientNotification.sendPing.complete w').2.log =
        w'.log ++ .wrote .connected (frame 0xC0 []) result :: later := by
  obtain ⟨_, hevs⟩ := hrun.outbound (Nat.zero_le _)
  have hne : w.state ≠ .disconnected := by
    rw [hs]
    decide
  have hiff := @pings_iff _ _ p w hevs.valid hne hkeep
  refine ⟨nextPingIn_eq_zero hkeep, fun before now behind heq hover => ?_, hiff, fun hzero => ?_,
    fun w' hping htx => ?_⟩
  · obtain ⟨evs, t, result, buf, ht, hlog, -, -⟩ :=
      @nextNotification_turns _ _ p w hevs.valid hne
    -- the turns before the last one, and the last one
    have hheeds := t.heeds_poll (p.now t.platform).1 result buf
    rw [ht.gathered.transportClient] at hheeds
    rw [hlog, List.drop_left] at heq
    obtain ⟨result, buf, behind', rfl⟩ := ht.heeds.append hheeds before now behind heq
    rw [(nextPingIn_eq_zero hkeep now).mpr hover]
    exact ⟨result, buf, behind', rfl⟩
  · exact hiff.mpr fun x _ _ => .inl (hzero _ _)
  · obtain ⟨evs, evs', t, hg, -, hg', -⟩ := nextNotification_of_ping hevs.valid hping
    have ht := hg.trans hg'
    exact completeNotification_sendPing (ht.state.trans hs) (by rw [ht.txLength]; exact htx)

/-- A broker that keeps silent behind its CONNACK, and a clock that moves on when
bytes arrive. -/
theorem keepAlive_served_silent :
    let p : Platform (List UInt8) Unit :=
      { endingPlatform 4 with
        now := fun stream => (⟨UInt64.ofNat (100000 - 10000 * stream.length)⟩, stream) }
    let w₀ : World (List UInt8) Unit :=
      ⟨new (List.replicate 32 0) (List.replicate 16 0), [0x20, 2, 0, 0], []⟩
    Pings p (perform p (.connect ⟨"client", none, none, 10, true⟩) w₀).2 := by
  intro p w₀
  generalize hw : (perform p (.connect ⟨"client", none, none, 10, true⟩) w₀).2 = w
  have hrun : Epoch p w₀ w₀ w := by
    rw [← hw]
    exact @Epoch.opens _ _ _ _ _ _ _ (.connect ⟨"client", none, none, 10, true⟩) _ .start
      (Option.some_ne_none _) Prod.mk.eta.symm (by decide +kernel)
  have hstream : w.platform = [] := by rw [← hw]; decide +kernel
  have hkeep : w.client.transportClient.keepAlive.isPositive = true := by rw [← hw]; decide +kernel
  have htimes : ∀ {timeout d}, timeout (p.now []).1 = some d → p.TimesOut timeout w.inbound := by
    intro timeout d hd
    rw [Platform.TimesOut, Platform.poll, World.inbound, hstream, hd]
    rfl
  -- no turn comes behind the first, since its read times out
  have hs : w.state = .connected := by rw [← hw]; decide +kernel
  refine (keepAlive_served hrun hs hkeep).2.2.1.mpr fun x hx _ => ?_
  rcases hx.cases_head with rfl | ⟨y, hy, -⟩
  · exact .inl (htimes rfl)
  · exact absurd hy (htimes (if_pos hkeep)).not_part

/-- A broker that sends a PUBLISH behind its CONNACK: the client, which has not
written for longer than its keep-alive, delivers the PUBLISH.  The platform keeps
to what is said of it. -/
theorem keepAlive_served_publish :
    ¬∀ (σ E : Type) (p : Platform σ E) (txBuffer rxBuffer : List UInt8) (s : σ)
        (start w : World σ E), p.Honest → p.Timely →
      Epoch p ⟨new txBuffer rxBuffer, s, []⟩ start w → w.state = .connected →
      w.client.transportClient.keepAlive.isPositive = true → Pings p w := by
  intro h
  let p : Platform (List UInt8) Unit :=
    { endingPlatform 4 with
      now := fun stream => (⟨UInt64.ofNat (100000 - 10000 * stream.length)⟩, stream) }
  let w₀ : World (List UInt8) Unit := ⟨new (List.replicate 32 0) (List.replicate 16 0),
    [0x20, 2, 0, 0, 0x30, 4, 0, 1, 97, 98], []⟩
  let w := (perform p (.connect ⟨"client", none, none, 10, true⟩) w₀).2
  have hrun : Epoch p w₀ w₀ w :=
    @Epoch.opens _ _ _ _ _ _ _ (.connect ⟨"client", none, none, 10, true⟩) _ .start
      (Option.some_ne_none _) Prod.mk.eta.symm (by decide +kernel)
  have hping := h _ _ p _ _ _ _ w (honest_endingPlatform 4) (timely_endingPlatform 4) hrun
    (by decide +kernel) (by decide +kernel) ⟨40000⟩ (by decide +kernel) (by decide +kernel)
  have hpublish : (nextNotification p w).1 = .ok (.transportNotification
      ⟨.publish ⟨false, .atMostOnce, false, "a", 0, [98]⟩, 6⟩) := by decide +kernel
  cases hpublish.symm.trans hping

end KeepAlive

end NanoClient

end Umqtt
