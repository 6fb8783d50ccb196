/-
Umqtt/NanoClient/Polling.lean

The turns of `next_notification`, from what its platform answers.

A turn asks for the time, and then for bytes until the next ping
(`Platform.poll`).  The read times out, or it brings bytes and there is no whole
frame yet (`Platform.Part`), or the turn is the last in another way.  So the
receive buffer and the state of the platform before a call determine its turns:
they are those that steps of `Part` reach, and the call asks for a ping iff the
read of the last one times out (`nextNotification_turns`).
-/
import Mathlib.Logic.Relation
import Umqtt.NanoClient.Receiving

namespace Umqtt

open Effects Wire Relation

namespace Platform

variable {σ E : Type} (p : Platform σ E) (timeout : Instant → Option Duration) (x : Buffer × σ)

/-- What a turn is answered that finds the receive buffer and the platform as `x`
says: it asks for the time, and for as many bytes as there is room for, with the
timeout that belongs to that time. -/
def poll : (Except E (Option Nat) × List UInt8) × σ :=
  p.readSome (x.1.buffer.drop x.1.used) (timeout (p.now x.2).1) (p.now x.2).2

/-- The read of the turn times out. -/
def TimesOut : Prop := (p.poll timeout x).1.1 = .ok none

/-- The read of the turn brings bytes, and there is no whole frame yet. -/
inductive Part : Buffer × σ → Prop where
  | intro {n : Nat} {buf : List UInt8} {s : σ} : p.poll timeout x = ((.ok (some n), buf), s) →
      n ≠ 0 → n ≤ buf.length →
      ¬NanoClient.Framed ((x.1.storeUnused buf).advance n).content x.1.capacity →
      Part ((x.1.storeUnused buf).advance n, s)

variable {p timeout} {x y z : Buffer × σ}

theorem Part.unique (h : p.Part timeout x y) (h' : p.Part timeout x z) : y = z := by
  obtain ⟨hpoll, -, -, -⟩ := h
  obtain ⟨hpoll', -, -, -⟩ := h'
  cases hpoll.symm.trans hpoll'
  rfl

theorem TimesOut.not_part (h : p.TimesOut timeout x) : ¬p.Part timeout x y := by
  rintro ⟨hpoll, -, -, -⟩
  rw [TimesOut, hpoll] at h
  cases h

/-- A turn that is reached is on the way to the last one. -/
theorem reaches_last (hy : ReflTransGen (p.Part timeout) x y)
    (hz : ReflTransGen (p.Part timeout) x z) (hlast : ∀ u, ¬p.Part timeout z u) :
    ReflTransGen (p.Part timeout) y z := by
  have hunique : Relator.RightUnique (p.Part timeout) := fun _ _ _ h h' => h.unique h'
  rcases hy.total_of_right_unique hunique hz with h | h
  · exact h
  · rcases h.cases_head with rfl | ⟨u, hu, -⟩
    · exact .refl
    · exact absurd hu (hlast u)

/-- A turn whose read times out is the last one. -/
theorem TimesOut.eq_last (h : p.TimesOut timeout y) (hy : ReflTransGen (p.Part timeout) x y)
    (hz : ReflTransGen (p.Part timeout) x z) (hlast : ∀ u, ¬p.Part timeout z u) : y = z := by
  -- the last turn is reached from it, and no step leaves it
  rcases (reaches_last hy hz hlast).cases_head with heq | ⟨u, hu, -⟩
  · exact heq
  · exact absurd hu h.not_part

end Platform

namespace NanoClient

section Polling

variable {σ E : Type} {p : Platform σ E}

/-- What a turn finds: the receive buffer, and the state of the platform. -/
def World.inbound (w : World σ E) : Buffer × σ := (w.client.rxBuffer, w.platform)

/-! ### One turn -/

section Turn

variable {t : World σ E} {now : Instant} {s s' : σ} {buf : List UInt8}

theorem gathered_clocked (hv : t.Valid) (now : Instant) (s : σ) :
    Gathered t [.clock now] (t.clocked now s) :=
  ⟨.clocked hv now s, fun _ he => List.mem_singleton.mp he ▸ ⟨id, id⟩, rfl⟩

/-- A turn whose read times out. -/
theorem nextNotificationTurn_timedOut (hv : t.Valid) (hn : p.now t.platform = (now, s))
    (hread : p.readSome (t.client.rxBuffer.buffer.drop t.client.rxBuffer.used)
      (t.client.transportClient.nextPingIn now) s = ((.ok none, buf), s')) :
    ∃ u, Gathered t (t.poll now (.ok none) buf) u ∧ u.content = t.content ∧ u.platform = s' ∧
      nextNotificationTurn p t = (.ok (some (some .sendPing)), u) := by
  have hclock := gathered_clocked hv now s
  have hrun : readSomeWithTimeout p (t.client.transportClient.nextPingIn now) (t.clocked now s) =
      (.ok none, (t.clocked now s).afterRead (t.client.transportClient.nextPingIn now) (.ok none)
        buf s') := by
    rw [readSomeWithTimeout, Act.bind_of_ok (platformReadSome_eq p hclock.valid hread)]
    rfl
  have hturn : nextNotificationTurn p t = (.ok (some (some .sendPing)),
      (t.clocked now s).afterRead (t.client.transportClient.nextPingIn now) (.ok none) buf s') := by
    rw [nextNotificationTurn_eq p hn, Act.bind_of_ok hrun]
    rfl
  have htrace := Trace.afterRead (t.client.transportClient.nextPingIn now) (.ok none) s'
    hclock.valid (@length_readSome _ _ p (t.clocked now s) _ _ _ _ hread) rfl
  have hquiet : (Event.read (t.client.transportClient.nextPingIn now) (.ok none) buf :
      Event E).Quiet := ⟨id, id⟩
  have hall : Gathered t (t.poll now (.ok none) buf) _ :=
    hclock.trans ⟨htrace, List.forall_mem_singleton.mpr hquiet, rfl⟩
  exact ⟨_, hall, hall.content.trans (List.append_nil _), rfl, hturn⟩

/-- A turn whose read brings `n` bytes. -/
theorem nextNotificationTurn_received {n : Nat} (hv : t.Valid) (hn : p.now t.platform = (now, s))
    (hread : p.readSome (t.client.rxBuffer.buffer.drop t.client.rxBuffer.used)
      (t.client.transportClient.nextPingIn now) s = ((.ok (some n), buf), s'))
    (hpos : n ≠ 0) (hle : n ≤ buf.length) :
    ∃ u, Chunk t (t.poll now (.ok (some n)) buf) u ∧ u.content = t.content ++ buf.take n ∧
      u.inbound = ((t.client.rxBuffer.storeUnused buf).advance n, s') ∧
      nextNotificationTurn p t = checkUsed u := by
  have hclock := gathered_clocked hv now s
  have hrun : readSomeWithTimeout p (t.client.transportClient.nextPingIn now) (t.clocked now s) =
      (.ok (some n), ((t.clocked now s).afterRead (t.client.transportClient.nextPingIn now)
        (.ok (some n)) buf s').advanced n) := by
    rw [readSomeWithTimeout, Act.bind_of_ok (platformReadSome_eq p hclock.valid hread)]
    simp only [if_neg hpos]
    rfl
  have htrace := Trace.advanced (t.client.transportClient.nextPingIn now) s' hclock.valid
    (@length_readSome _ _ p (t.clocked now s) _ _ _ _ hread) hle
  have hfails : ¬(Event.read (t.client.transportClient.nextPingIn now) (.ok (some n)) buf :
      Event E).Fails := by
    cases n with
    | zero => exact absurd rfl hpos
    | succ n => exact id
  have hbytes : (Event.read (t.client.transportClient.nextPingIn now) (.ok (some n)) buf :
      Event E).received ≠ [] := by
    apply List.ne_nil_of_length_pos
    rw [Event.received, List.length_take]
    omega
  refine ⟨((t.clocked now s).afterRead (t.client.transportClient.nextPingIn now)
    (.ok (some n)) buf s').advanced n,
    ⟨hclock.toTrace.trans htrace, ?_, rfl, [.clock now], _, rfl, rfl, trivial, hbytes⟩, ?_, rfl, ?_⟩
  · exact List.forall_mem_append.mpr ⟨hclock.quiet, List.forall_mem_singleton.mpr ⟨id, hfails⟩⟩
  · rw [htrace.content, received, List.flatMap_singleton]
    rfl
  · rw [nextNotificationTurn_eq p hn, Act.bind_of_ok hrun]
    rfl

theorem checkUsed_of_not_valid {u : World σ E} (hv : ¬u.Valid) :
    checkUsed u = (.panic, u) := by
  rw [checkUsed, Act.bind_apply, usedSlice, Buffer.usedSlice_of_not hv]

/-- The ways in which a turn ends that calls `evs`. -/
inductive TurnEnd (p : Platform σ E) (t : World σ E) (evs : List (Event E)) :
    Outcome (Error E) (Option (Option ClientNotification)) → World σ E → Prop where
  | timedOut {u : World σ E} : p.TimesOut t.client.transportClient.nextPingIn t.inbound →
      TurnEnd p t evs (.ok (some (some .sendPing))) u
  | part {u : World σ E} : p.Part t.client.transportClient.nextPingIn t.inbound u.inbound →
      Chunk t evs u → TurnEnd p t evs (.ok none) u
  | last {u : World σ E} {r : Outcome (Error E) (Option (Option ClientNotification))} :
      ¬p.TimesOut t.client.transportClient.nextPingIn t.inbound →
      (∀ y, ¬p.Part t.client.transportClient.nextPingIn t.inbound y) →
      r ≠ .ok none → r ≠ .ok (some (some .sendPing)) → TurnEnd p t evs r u

theorem nextNotificationTurn_polled (hv : t.Valid) :
    ∃ result buf, (nextNotificationTurn p t).2.log =
        t.log ++ t.poll (p.now t.platform).1 result buf ∧
      TurnEnd p t (t.poll (p.now t.platform).1 result buf) (nextNotificationTurn p t).1
        (nextNotificationTurn p t).2 := by
  rcases hn : p.now t.platform with ⟨now, s⟩
  rcases hread : p.readSome (t.client.rxBuffer.buffer.drop t.client.rxBuffer.used)
    (t.client.transportClient.nextPingIn now) s with ⟨⟨result, buf⟩, s'⟩
  have hpoll : p.poll t.client.transportClient.nextPingIn t.inbound = ((result, buf), s') := by
    rw [Platform.poll, World.inbound, hn]
    exact hread
  refine ⟨result, buf, ?_⟩
  have hturn := nextNotificationTurn_eq p hn
  have hsome := someRead p (t.client.transportClient.nextPingIn now) (t.clocked now s)
  rcases hrun : readSomeWithTimeout p (t.client.transportClient.nextPingIn now) (t.clocked now s)
    with ⟨r, u⟩
  rw [hrun] at hsome
  -- a read that fails is no timeout, and the end of the loop
  have hfailed : ∀ e, r = .err e → result ≠ .ok none → (∀ n, result = .ok (some n) → n = 0) →
      u.log = t.log ++ t.poll now result buf → (nextNotificationTurn p t).2.log =
        t.log ++ t.poll now result buf ∧ TurnEnd p t (t.poll now result buf)
          (nextNotificationTurn p t).1 (nextNotificationTurn p t).2 := by
    rintro e rfl hnone hzero hlog
    rw [Act.bind_of_err hrun] at hturn
    rw [hturn]
    refine ⟨hlog, .last (fun htimes => ?_) ?_ (by rintro ⟨⟩) (by rintro ⟨⟩)⟩
    · rw [Platform.TimesOut, hpoll] at htimes
      exact hnone htimes
    · rintro _ ⟨hpart, hpos, -, -⟩
      cases hpart.symm.trans hpoll
      exact hpos (hzero _ rfl)
  cases hsome with
  | invalid hinvalid => exact absurd hv hinvalid
  | @idle _ _ _ hr =>
    cases hr.symm.trans hread
    obtain ⟨u, hg, -, -, hturn⟩ := nextNotificationTurn_timedOut hv hn hread
    rw [hturn]
    refine ⟨hg.log, .timedOut ?_⟩
    rw [Platform.TimesOut, hpoll]
  | @eof _ _ _ hr =>
    cases hr.symm.trans hread
    refine hfailed _ rfl (by rintro ⟨⟩) (fun n hn => ?_) (List.append_assoc _ _ _)
    cases hn
    rfl
  | @failed _ _ _ _ hr =>
    cases hr.symm.trans hread
    refine hfailed _ rfl (by rintro ⟨⟩) (fun n hn => ?_) (List.append_assoc _ _ _)
    cases hn
  | @bytes n _ _ _ hpos hr =>
    cases hr.symm.trans hread
    have htimes : ¬p.TimesOut t.client.transportClient.nextPingIn t.inbound := by
      rw [Platform.TimesOut, hpoll]
      rintro ⟨⟩
    by_cases hle : n ≤ buf.length
    · obtain ⟨u, hc, -, hinbound, hturn⟩ := nextNotificationTurn_received hv hn hread hpos hle
      have hcontent : u.content = ((t.inbound.1.storeUnused buf).advance n).content :=
        congrArg (fun x => x.1.content) hinbound
      have hcap : u.capacity = t.inbound.1.capacity := hc.capacity
      rcases checkUsed_eq hc.valid with ⟨hf, hcheck⟩ | ⟨hf, hcheck⟩
      · rw [hcontent, hcap] at hf
        rw [hturn, hcheck]
        refine ⟨hc.log, .last htimes ?_ (by rintro ⟨⟩) (by rintro ⟨⟩)⟩
        rintro _ ⟨hpart, -, -, hno⟩
        cases hpart.symm.trans hpoll
        exact hno hf
      · rw [hcontent, hcap] at hf
        rw [hturn, hcheck]
        refine ⟨hc.log, .part ?_ hc⟩
        rw [hinbound]
        exact ⟨hpoll, hpos, hle, hf⟩
    · -- the platform claims more bytes than it was given room for
      have hlen := @length_readSome _ _ p (t.clocked now s) _ _ _ _ hread
      have hpanic := @checkUsed_of_not_valid _ _ (((t.clocked now s).afterRead
        (t.client.transportClient.nextPingIn now) (.ok (some n)) buf s').advanced n)
          fun hu => hle ((Buffer.valid_advance hv hlen).mp hu)
      rw [Act.bind_of_ok hrun] at hturn
      rw [hturn.trans hpanic]
      refine ⟨List.append_assoc _ _ _, .last htimes ?_ (by rintro ⟨⟩) (by rintro ⟨⟩)⟩
      rintro _ ⟨hpart, -, hle', -⟩
      cases hpart.symm.trans hpoll
      exact hle hle'

end Turn

/-! ### The turns of a call -/

/-- Turns from `w` that each brought bytes and went on. -/
inductive Turns (p : Platform σ E) (w : World σ E) : List (Event E) → World σ E → Prop where
  | nil : w.Valid → Turns p w [] w
  | turn {evs : List (Event E)} {t u : World σ E} {result : Except E (Option Nat)}
      {buf : List UInt8} : Turns p w evs t →
      p.Part t.client.transportClient.nextPingIn t.inbound u.inbound →
      Chunk t (t.poll (p.now t.platform).1 result buf) u →
      Turns p w (evs ++ t.poll (p.now t.platform).1 result buf) u

section Turns

variable {w t : World σ E} {evs : List (Event E)}

theorem Turns.gathered (h : Turns p w evs t) : Gathered w evs t := by
  induction h with
  | nil hv => exact .refl hv
  | turn _ _ hc ih => exact ih.trans hc.gathered

/-- They are steps of the platform and the buffer. -/
theorem Turns.reaches (h : Turns p w evs t) :
    ReflTransGen (p.Part w.client.transportClient.nextPingIn) w.inbound t.inbound := by
  induction h with
  | nil => exact .refl
  | turn ht hpart _ ih =>
    rw [ht.gathered.transportClient] at hpart
    exact ih.tail hpart

/-- The clock was read at the start of each of them. -/
theorem Turns.mem_clock {now : Instant} (h : Turns p w evs t) (hmem : .clock now ∈ evs) :
    ∃ x, ReflTransGen (p.Part w.client.transportClient.nextPingIn) w.inbound x ∧
      (p.now x.2).1 = now := by
  induction h with
  | nil => cases hmem
  | @turn _ t _ _ _ ht _ _ ih =>
    rcases List.mem_append.mp hmem with hmem | hmem
    · exact ih hmem
    · refine ⟨t.inbound, ht.reaches, ?_⟩
      rcases List.mem_cons.mp hmem with heq | hmem
      · cases heq
        rfl
      · cases List.mem_singleton.mp hmem

/-- A turn that steps reach is one of them, or comes behind them. -/
theorem Turns.reached (h : Turns p w evs t) {x : Buffer × σ}
    (hx : ReflTransGen (p.Part w.client.transportClient.nextPingIn) w.inbound x) :
    .clock (p.now x.2).1 ∈ evs ∨
      ReflTransGen (p.Part w.client.transportClient.nextPingIn) t.inbound x := by
  induction h with
  | nil => exact .inr hx
  | turn ht hpart _ ih =>
    rw [ht.gathered.transportClient] at hpart
    -- it is this turn, or an earlier one, or one that comes behind
    rcases ih with hmem | hreach
    · exact .inl (List.mem_append_left _ hmem)
    · rcases hreach.cases_head with rfl | ⟨y, hy, hreach⟩
      · exact .inl (List.mem_append_right _ (List.mem_cons_self ..))
      · rw [hpart.unique hy]
        exact .inr hreach

end Turns

/-- Behind each look at the clock comes a read, with the timeout that belongs to that
time. -/
def Heeds (timeout : Instant → Option Duration) (evs : List (Event E)) : Prop :=
  ∀ before now behind, evs = before ++ .clock now :: behind →
    ∃ result buf behind', behind = .read (timeout now) result buf :: behind'

theorem Heeds.append {timeout : Instant → Option Duration} {evs evs' : List (Event E)}
    (h : Heeds timeout evs) (h' : Heeds timeout evs') : Heeds timeout (evs ++ evs') := by
  intro before now behind heq
  rcases List.append_eq_append_iff.mp heq with ⟨as, rfl, hbehind⟩ | ⟨bs, rfl, hbehind⟩
  · exact h' as now behind hbehind
  · cases bs with
    | nil => exact h' [] now behind hbehind.symm
    | cons e bs =>
      obtain ⟨rfl, rfl⟩ := List.cons.inj hbehind
      obtain ⟨result, buf, behind', rfl⟩ := h before now bs rfl
      exact ⟨result, buf, behind' ++ evs', rfl⟩

theorem World.heeds_poll (t : World σ E) (now : Instant) (result : Except E (Option Nat))
    (buf : List UInt8) : Heeds t.client.transportClient.nextPingIn (t.poll now result buf) := by
  intro before now' behind heq
  cases before with
  | nil =>
    cases heq
    exact ⟨result, buf, [], rfl⟩
  | cons e before =>
    have hread := (List.cons.inj heq).2
    cases before with
    | nil => cases hread
    | cons e before => cases before <;> cases hread

theorem Turns.heeds {w t : World σ E} {evs : List (Event E)} (h : Turns p w evs t) :
    Heeds w.client.transportClient.nextPingIn evs := by
  induction h with
  | nil => exact fun before now behind heq => by cases before <;> cases heq
  | @turn _ t _ result buf ht _ _ ih =>
    have hheeds := t.heeds_poll (p.now t.platform).1 result buf
    rw [ht.gathered.transportClient] at hheeds
    exact ih.append hheeds

/-- What is made of the received bytes is no request for a ping, and asks nothing of
the platform. -/
theorem takeNotification_polls_nothing (u : World σ E) :
    (takeNotification u).2.log = u.log ∧
      (takeNotification u).1 ≠ (.ok .sendPing : Outcome (Error E) ClientNotification) := by
  by_cases hu : u.Valid
  · rw [takeNotification_eq hu]
    exact ⟨rfl, notify_ne_sendPing _⟩
  · have hused : (usedSlice : Act (World σ E) (Error E) (List UInt8)) u = (.panic, u) := by
      rw [usedSlice, Buffer.usedSlice_of_not hu]
    have hpanic : takeNotification u = (.panic, u) := by
      rw [takeNotification, Act.bind_apply, onBytesReceived, Act.bind_apply, hused]
    rw [hpanic]
    exact ⟨rfl, by rintro ⟨⟩⟩

/-- The turns of a call: those that steps of the platform and the buffer reach, up
to one behind which there is no other.  The call asks for a ping iff the read of
this one times out. -/
theorem nextNotification_turns {w : World σ E} (hv : w.Valid) (hs : w.state ≠ .disconnected) :
    ∃ evs t result buf, Turns p w evs t ∧
      (nextNotification p w).2.log =
        w.log ++ (evs ++ t.poll (p.now t.platform).1 result buf) ∧
      (∀ y, ¬p.Part w.client.transportClient.nextPingIn t.inbound y) ∧
      ((nextNotification p w).1 = .ok .sendPing ↔
        p.TimesOut w.client.transportClient.nextPingIn t.inbound) := by
  have hstep : ∀ t t' : World σ E, (∃ evs, Turns p w evs t) →
      nextNotificationTurn p t = (.ok none, t') →
      (∃ evs, Turns p w evs t') ∧
        t'.capacity - t'.content.length < t.capacity - t.content.length := by
    rintro t t' ⟨evs, ht⟩ hturn
    obtain ⟨result, buf, -, h⟩ := @nextNotificationTurn_polled _ _ p t ht.gathered.valid
    rw [hturn] at h
    cases h with
    | part hpart hc => exact ⟨⟨_, ht.turn hpart hc⟩, hc.room_lt⟩
    | last _ _ hgoes => exact absurd rfl hgoes
  obtain ⟨t, ⟨evs, ht⟩, hlast, hloop⟩ := Act.loop_ends hstep
    (w.capacity - w.content.length + 1) w ⟨[], .nil hv⟩ (Nat.lt_succ_self _)
  obtain ⟨result, buf, hlog, h⟩ := @nextNotificationTurn_polled _ _ p t ht.gathered.valid
  refine ⟨evs, t, result, buf, ht, ?_⟩
  -- what `next_notification` does with the last turn of its loop
  rw [← List.append_assoc, ← ht.gathered.log, ← ht.gathered.transportClient]
  have hopen : w.client.isDisconnected = false :=
    Bool.eq_false_iff.mpr fun h => hs (isDisconnected_iff.mp h)
  rw [nextNotification, Act.bind_apply, Act.gets_apply]
  simp only [hopen, Bool.false_eq_true, if_false]
  rw [Act.bind_of_ok (turns_apply hv), Act.bind_apply, hloop]
  rcases hturn : nextNotificationTurn p t with ⟨r, u⟩
  rw [hturn] at h hlog
  cases h with
  | timedOut htimes => exact ⟨hlog, fun y => htimes.not_part, iff_of_true rfl htimes⟩
  | part => exact absurd hturn (hlast u)
  | last htimes hno hgoes hping =>
    rcases r with (- | - | n) | e | _
    · exact absurd rfl hgoes
    · -- there is a whole frame, and no more is read
      obtain ⟨hsame, hne⟩ := takeNotification_polls_nothing u
      exact ⟨hsame.trans hlog, hno, iff_of_false hne htimes⟩
    · refine ⟨hlog, hno, iff_of_false (fun hn => hping ?_) htimes⟩
      cases hn
      rfl
    · exact ⟨hlog, hno, iff_of_false (by rintro ⟨⟩) htimes⟩
    · exact ⟨hlog, hno, iff_of_false (by rintro ⟨⟩) htimes⟩

end Polling

end NanoClient

end Umqtt
