/-
Umqtt/NanoClient/Hopeless.lean

What `next_notification` does with bytes that can never become a frame.

The framing check fails for good on a malformed remaining length, and on one
that is larger than the receive buffer.  `read_connack` returns such an error at
once (`takeConnack_of_hopeless`).  The loop of `next_notification` asks only
whether the check succeeds, takes the failure for a request for more bytes, and
reads on; so it reports the error iff there is none (`hopeless_reported`).
-/
import Umqtt.NanoClient.Outbound

namespace Umqtt

open Effects Wire

namespace NanoClient

section Hopeless

variable {σ E : Type}

/-- The framing check rejects the bytes, whatever follows them. -/
def Hopeless (content : List UInt8) (capacity : Nat) : Prop :=
  ∃ e, Settled e ∧ check content capacity = .err e

theorem check_append_of_settled {content : List UInt8} {capacity : Nat} {e : Umqtt.Error}
    (he : Settled e) (h : check content capacity = .err e) (more : List UInt8) :
    check (content ++ more) capacity = .err e := by
  rw [check_append more fun k hk => ?_, h]
  cases h.symm.trans hk
  cases he

theorem Hopeless.not_framed {content : List UInt8} {capacity : Nat}
    (h : Hopeless content capacity) : ¬Framed content capacity := by
  rintro ⟨fh, hfh⟩
  obtain ⟨e, -, he⟩ := h
  cases he.symm.trans hfh

/-- As soon as the buffered bytes of the call are hopeless, it returns their
error and closes the client, without another read. -/
def Reports (p : Platform σ E) (w : World σ E) : Prop :=
  ∀ before behind e, (nextNotification p w).2.log = w.log ++ (before ++ behind) → Settled e →
    check (w.content ++ received before) w.capacity = .err e →
    (∀ ev ∈ behind, ¬ev.IsRead) ∧ (nextNotification p w).1 = .err (.readError e) ∧
      (nextNotification p w).2.state = .disconnected

variable {p : Platform σ E} {w : World σ E}

/-- `read_connack` reports hopeless bytes. -/
theorem takeConnack_of_hopeless {u : World σ E} {e : Umqtt.Error} (hv : u.Valid)
    (hs : u.state = .transportConnected) (he : Settled e)
    (h : check u.content u.client.transportClient.maxPacketSize = .err e) :
    takeConnack u = (.err (.readError e), u.closed) := by
  have hread : Packet.read u.content u.client.transportClient.maxPacketSize = .err e := by
    rw [Packet.read, h]
    rfl
  have hrecv : TransportClient.onBytesReceived u.content u.client.transportClient =
      (.err e, u.client.transportClient.onTransportClosed) := by
    have hr := TransportClient.received u.client.transportClient u.content
    rcases hb : TransportClient.onBytesReceived u.content u.client.transportClient with ⟨r, c⟩
    rw [hb] at hr
    cases hr with
    | closed hs' => cases hs.symm.trans hs'
    | needMore _ hmore =>
      cases hread.symm.trans hmore
      cases he
    | malformed _ _ herr =>
      cases hread.symm.trans herr
      rfl
    | accepted _ hok | refused _ hok | unexpected _ hok | packet _ hok =>
      cases hread.symm.trans hok
  rw [takeConnack, Act.bind_apply, onBytesReceived_eq hv, hrecv]
  rfl

/-- A call whose bytes are hopeless in the end does not report it. -/
theorem nextNotification_of_hopeless (hv : w.Valid) (hs : w.state ≠ .disconnected)
    {evs : List (Event E)} (hlog : (nextNotification p w).2.log = w.log ++ evs)
    (h : Hopeless (w.content ++ received evs) w.capacity) (e : Umqtt.Error) :
    (nextNotification p w).1 ≠ .err (.readError e) := by
  obtain ⟨got, t, now, result, buf, ht, -, hend⟩ := nextNotification_polls p hv hs
  generalize (nextNotification p w).1 = r at hend ⊢
  generalize (nextNotification p w).2 = w' at hend hlog
  intro hr
  subst hr
  generalize hr : (Outcome.err (.readError e) : Outcome (Error E) ClientNotification) = r at hend
  cases hend with
  | idle | overrun => cases hr
  | broke _ he =>
    cases hr
    rcases he with he | ⟨x, he⟩ <;> cases he
  | @framed n buf u _ _ hc hf =>
    have hu := ht.gathered.trans hc.gathered
    have hevs : evs = got ++ t.poll now (.ok (some n)) buf :=
      List.append_cancel_left (hlog.symm.trans hu.log)
    rw [hevs, ← hu.content, ← hu.capacity] at h
    exact h.not_framed hf

theorem nextNotification_log (hv : w.Valid) (hs : w.state ≠ .disconnected) :
    ∃ evs, (nextNotification p w).2.log = w.log ++ evs := by
  obtain ⟨got, t, now, result, buf, ht, -, hend⟩ := nextNotification_polls p hv hs
  exact ⟨_, by rw [hend.log, ht.gathered.log, List.append_assoc]⟩

/-- The call reports that its bytes are hopeless iff they are not. -/
theorem reports_iff (hv : w.Valid) (hs : w.state ≠ .disconnected) {evs : List (Event E)}
    (hlog : (nextNotification p w).2.log = w.log ++ evs) :
    Reports p w ↔ ¬Hopeless (w.content ++ received evs) w.capacity := by
  constructor
  · intro hreports hhopeless
    obtain ⟨e, he, hcheck⟩ := hhopeless
    have hlast := hreports evs [] e (by rw [List.append_nil, hlog]) he hcheck
    exact nextNotification_of_hopeless hv hs hlog ⟨e, he, hcheck⟩ e hlast.2.1
  · intro hno before behind e hlog' he hcheck
    obtain rfl : evs = before ++ behind := List.append_cancel_left (hlog.symm.trans hlog')
    refine absurd ⟨e, he, ?_⟩ hno
    rw [received_append, ← List.append_assoc]
    exact check_append_of_settled he hcheck _

/-- In every state of a run, `next_notification` reports hopeless bytes iff the
bytes buffered before the call and received by it are not hopeless. -/
theorem hopeless_reported {txBuffer rxBuffer : List UInt8} {s : σ} {start : World σ E}
    (hrun : Epoch p ⟨new txBuffer rxBuffer, s, []⟩ start w) (hs : w.state = .connected) :
    Reports p w ↔
      ¬Hopeless (w.content ++ received ((nextNotification p w).2.log.drop w.log.length))
        w.capacity := by
  obtain ⟨_, hevs⟩ := hrun.outbound (Nat.zero_le _)
  have hne : w.state ≠ .disconnected := by
    rw [hs]
    decide
  obtain ⟨evs, hlog⟩ := nextNotification_log hevs.valid hne
  have hdrop : (nextNotification p w).2.log.drop w.log.length = evs := by
    rw [hlog, List.drop_left]
  rw [hdrop]
  exact reports_iff hevs.valid hne hlog

/-- A PINGRESP behind the CONNACK. -/
theorem hopeless_reported_pingResp :
    let p := streamPlatform 4
    let w₀ : World (List UInt8) Unit :=
      ⟨new (List.replicate 32 0) (List.replicate 8 0), [0x20, 2, 0, 0, 0xD0, 0], []⟩
    Reports p (perform p (.connect ⟨"client", none, none, 10, true⟩) w₀).2 := by
  intro p w₀
  have hrun : Epoch p w₀ w₀ (perform p (.connect ⟨"client", none, none, 10, true⟩) w₀).2 :=
    @Epoch.opens _ _ _ _ _ _ _ (.connect ⟨"client", none, none, 10, true⟩) _ .start
      (Option.some_ne_none _) rfl (by decide +kernel)
  refine (hopeless_reported hrun (by decide +kernel)).mpr ?_
  rintro ⟨e, -, he⟩
  have hok : check [0xD0, 0] 8 = .ok ⟨0xD0, 2, 0⟩ := by decide
  have hcontent : (perform p (.connect ⟨"client", none, none, 10, true⟩) w₀).2.content ++
      received ((nextNotification p (perform p (.connect ⟨"client", none, none, 10, true⟩)
        w₀).2).2.log.drop (perform p (.connect ⟨"client", none, none, 10, true⟩)
        w₀).2.log.length) = [0xD0, 0] := by decide +kernel
  rw [hcontent] at he
  cases hok.symm.trans he

/-- A PUBLISH whose remaining length does not end, behind the CONNACK: the call
reads on, and asks for a ping. -/
theorem hopeless_reported_malformed :
    ¬∀ (σ E : Type) (p : Platform σ E) (txBuffer rxBuffer : List UInt8) (s : σ)
        (start w : World σ E), Epoch p ⟨new txBuffer rxBuffer, s, []⟩ start w →
      w.state = .connected → Reports p w := by
  intro h
  let p := streamPlatform 4
  let w₀ : World (List UInt8) Unit := ⟨new (List.replicate 32 0) (List.replicate 16 0),
    [0x20, 2, 0, 0, 0x30, 0xFF, 0xFF, 0xFF, 0xFF], []⟩
  let w := (perform p (.connect ⟨"client", none, none, 10, true⟩) w₀).2
  have hrun : Epoch p w₀ w₀ w :=
    @Epoch.opens _ _ _ _ _ _ _ (.connect ⟨"client", none, none, 10, true⟩) _ .start
      (Option.some_ne_none _) rfl (by decide +kernel)
  have hreports := h _ _ p _ _ _ _ w hrun (by decide +kernel)
    ((nextNotification p w).2.log.drop w.log.length) [] .malformedRemainingLength
    (by decide +kernel) rfl (by decide +kernel)
  have hping : (nextNotification p w).1 = .ok .sendPing := by decide +kernel
  cases hping.symm.trans hreports.2.1

end Hopeless

end NanoClient

end Umqtt
