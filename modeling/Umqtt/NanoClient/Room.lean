/-
Umqtt/NanoClient/Room.lean

When a read has room in the receive buffer.

The loops of `read_connack` and `next_notification` read once more when the
buffer holds no whole frame.  If all frames of the stream fit into the buffer
(`Fits`), its contents then are shorter than it, and the next read has room; if
the first frame announces more than the buffer holds (`TooLarge`), they are
shorter until its header is known, which is where `connect` stops.
-/
import Umqtt.NanoClient.Hopeless

namespace Umqtt

open Effects Wire

namespace NanoClient

/-! ### Streams of frames that fit -/

/-- The data is the start of a stream of frames of at most `capacity` bytes. -/
def Fits (capacity : Nat) (data : List UInt8) : Prop :=
  ∃ more items, Reads (nextFrame 268435455) (data ++ more) items [] ∧
    ∀ item ∈ items, item.1.length ≤ capacity

/-- The data is the start of a stream whose first frame announces a remaining
length above `capacity`. -/
def TooLarge (capacity : Nat) (data : List UInt8) : Prop :=
  ∃ more fh lenBytes rest, FixedHeader.OnWire fh lenBytes ∧
    data ++ more = fh.byte1 :: (lenBytes ++ rest) ∧ capacity < fh.remainingLen

section Fits

variable {capacity n : Nat} {data more : List UInt8} {fh : FixedHeader}

theorem Fits.of_append (h : Fits capacity (data ++ more)) : Fits capacity data := by
  obtain ⟨more', items, hreads, hle⟩ := h
  rw [List.append_assoc] at hreads
  exact ⟨_, items, hreads, hle⟩

theorem fits_nil : Fits capacity [] := ⟨[], [], .nil [], nofun⟩

theorem Fits.frame_append (h : Fits capacity data) {byte1 : UInt8} {body : List UInt8}
    (hbody : body.length ≤ 268435455) (hle : (frame byte1 body).length ≤ capacity) :
    Fits capacity (frame byte1 body ++ data) := by
  obtain ⟨more, items, hreads, hitems⟩ := h
  have hnext := @nextFrame_frame byte1 body 268435455 (data ++ more) hbody hbody
  refine ⟨more, (frame byte1 body, frameHeader byte1 body) :: items, ?_,
    List.forall_mem_cons.mpr ⟨hle, hitems⟩⟩
  have hcons := Reads.cons hnext (by rwa [List.drop_left])
  rwa [List.take_left, ← List.append_assoc] at hcons

theorem TooLarge.of_append (h : TooLarge capacity (data ++ more)) : TooLarge capacity data := by
  obtain ⟨more', fh, lenBytes, rest, hw, heq, hlt⟩ := h
  rw [List.append_assoc] at heq
  exact ⟨_, fh, lenBytes, rest, hw, heq, hlt⟩

/-- The first frame of a stream, once it has been received. -/
theorem check_of_nextFrame (h : nextFrame 268435455 (data ++ more) = some (fh, n))
    (hn : n ≤ data.length) (hcap : n ≤ capacity) : check data capacity = .ok fh := by
  obtain ⟨hcheck, hlen⟩ := nextFrame_eq_some.mp h
  obtain ⟨lenBytes, body, rest, hw, heq, hbody, -⟩ := check_eq_ok.mp hcheck
  obtain rfl := Outcome.ok.inj (hw.frameLength_eq.symm.trans hlen)
  have hframe : (fh.byte1 :: (lenBytes ++ body)).length = fh.fixedHeaderLen + fh.remainingLen := by
    rw [hw.fixedHeaderLen, ← hbody, List.length_cons, List.length_append]
    omega
  have htake :
      data.take (fh.fixedHeaderLen + fh.remainingLen) = fh.byte1 :: (lenBytes ++ body) := by
    rw [← List.take_append_of_le_length hn, heq, ← hframe, ← List.append_assoc, ← List.cons_append]
    exact List.take_left
  refine check_eq_ok.mpr ⟨lenBytes, body, data.drop (fh.fixedHeaderLen + fh.remainingLen), hw, ?_,
    hbody, by omega⟩
  rw [← List.append_assoc, ← List.cons_append, ← htake, List.take_append_drop]

/-- The first frame of a stream of frames that fit. -/
theorem Fits.head (h : Fits capacity data) : data = [] ∨ ∃ more fh n,
    nextFrame 268435455 (data ++ more) = some (fh, n) ∧ n ≤ capacity ∧
      (n ≤ data.length → Fits capacity (data.drop n)) := by
  obtain ⟨more, items, hreads, hle⟩ := h
  generalize hall : data ++ more = all at hreads
  generalize hrest : ([] : List UInt8) = rest at hreads
  cases hreads with
  | nil =>
    subst hrest
    exact .inl (List.append_eq_nil_iff.mp hall).1
  | @cons _ _ fh n items hnext hreads =>
    subst hrest hall
    have hn := ((prefixed_nextFrame _).taken hnext).2
    have hcap := hle _ List.mem_cons_self
    rw [List.length_take_of_le hn] at hcap
    refine .inr ⟨more, fh, n, hnext, hcap, fun hlen => ⟨more, items, ?_, fun item hitem =>
      hle item (List.mem_cons_of_mem _ hitem)⟩⟩
    rwa [← List.drop_append_of_le_length hlen]

/-- Bytes that fit, and do not start with a frame, leave room for more. -/
theorem Fits.lt (h : Fits capacity data) (hf : ¬Framed data capacity) (hcap : 0 < capacity) :
    data.length < capacity := by
  obtain rfl | ⟨more, fh, n, hnext, hn, -⟩ := h.head
  · exact hcap
  · by_contra hge
    exact hf ⟨fh, check_of_nextFrame hnext (by omega) hn⟩

theorem nextFrame_of_read {q : Packet} (hread : Packet.read data capacity = .ok (q, n)) :
    ∃ fh, nextFrame 268435455 data = some (fh, n) := by
  obtain ⟨fh, hcheck, -⟩ := Outcome.bind_eq_ok.mp hread
  obtain ⟨lenBytes, body, rest, hw, rfl, hbody, hmax⟩ := check_eq_ok.mp hcheck
  rw [Packet.read_of_onWire hw hbody hmax] at hread
  obtain ⟨q', -, hq⟩ := Outcome.bind_eq_ok.mp hread
  cases hq
  exact ⟨fh, nextFrame_eq_some.mpr ⟨check_eq_ok.mpr ⟨lenBytes, body, rest, hw, rfl, hbody,
    hw.remainingLen_le⟩, hw.frameLength_eq⟩⟩

/-- What is left behind the first packet fits. -/
theorem Fits.drop (h : Fits capacity data) {q : Packet}
    (hread : Packet.read data capacity = .ok (q, n)) : Fits capacity (data.drop n) := by
  obtain ⟨h2, hle, -⟩ := Packet.read_eq_ok hread
  obtain rfl | ⟨more, fh, m, hnext, -, hdrop⟩ := h.head
  · exact absurd (h2.trans hle) (by decide)
  · obtain ⟨fh', hnext'⟩ := nextFrame_of_read hread
    cases hnext.symm.trans ((prefixed_nextFrame _).append more hnext')
    exact hdrop hle

/-- The bytes of a frame that is too large leave room until its header is known. -/
theorem TooLarge.lt (h : TooLarge capacity data) (hcap : 5 ≤ capacity)
    (hmore : ∃ k, Packet.read data capacity = .err (.needMoreData k)) :
    data.length < capacity := by
  obtain ⟨more, fh, lenBytes, rest, hw, heq, hlt⟩ := h
  obtain ⟨k, hk⟩ := hmore
  have hshort := hw.short
  by_contra hge
  have hle : (fh.byte1 :: lenBytes).length ≤ data.length := by
    rw [List.length_cons]
    omega
  obtain ⟨rest', rfl⟩ : fh.byte1 :: lenBytes <+: data :=
    List.prefix_of_prefix_length_le ⟨rest, heq.symm⟩ (List.prefix_append data more) hle
  rw [Packet.read, List.cons_append, check_of_onWire hw, if_pos hlt] at hk
  cases hk

end Fits

/-! ### Reads into a slice with room -/

section Reads

variable {σ E : Type} {p : Platform σ E}

/-- A read into an empty slice. -/
def Event.IsEmptyRead : Event E → Prop
  | .read _ _ buf => buf = []
  | _ => False

variable {lead : World σ E → List (Event E) → Option Duration → Prop} {goes : World σ E → Prop}
  {w t : World σ E} {evs : List (Event E)}

/-- The turns of a loop read into no empty slice, if there is room at the start,
and behind every turn that goes on. -/
theorem Polls.not_isEmptyRead (h : Polls lead goes w evs t)
    (hlead : ∀ {u pre timeout}, lead u pre timeout → ∀ e ∈ pre, ¬e.IsEmptyRead)
    (hroom : w.content.length < w.capacity)
    (hgoes : ∀ {u got}, goes u → Gathered w got u → got <+: evs → u.content.length < u.capacity) :
    (∀ e ∈ evs, ¬e.IsEmptyRead) ∧ t.content.length < t.capacity := by
  induction h with
  | nil => exact ⟨nofun, hroom⟩
  | @more evs pre timeout n buf t t' hpolls hl hlen hn hle hc hgo ih =>
    obtain ⟨hevs, ht⟩ := ih fun hu hgot hpre => hgoes hu hgot (hpre.trans (List.prefix_append _ _))
    refine ⟨List.forall_mem_append.mpr ⟨hevs, List.forall_mem_append.mpr ⟨hlead hl, ?_⟩⟩, ?_⟩
    · refine List.forall_mem_singleton.mpr fun hnil => ?_
      obtain rfl : buf = [] := hnil
      rw [List.length_nil] at hlen
      omega
    · exact hgoes hgo (hpolls.gathered.trans hc.gathered) (List.prefix_refl _)

/-- `next_notification` reads into no empty slice, if there is room before the
call, and all its bytes fit. -/
theorem nextNotification_not_isEmptyRead (hv : w.Valid) (hs : w.state ≠ .disconnected)
    (hroom : w.content.length < w.capacity)
    (hlog : (nextNotification p w).2.log = w.log ++ evs)
    (hfits : Fits w.capacity (w.content ++ received evs)) : ∀ e ∈ evs, ¬e.IsEmptyRead := by
  obtain ⟨got, t, now, result, buf, ht, hlen, hend⟩ := nextNotification_polls p hv hs
  have hlog' := hend.log
  rw [hlog, ht.gathered.log, List.append_assoc] at hlog'
  obtain rfl := List.append_cancel_left hlog'
  rw [received_append, ← List.append_assoc] at hfits
  have hlead : ∀ {u : World σ E} {pre timeout}, NextLead u pre timeout →
      ∀ e ∈ pre, ¬e.IsEmptyRead := by
    rintro u pre timeout ⟨now, rfl, -⟩
    exact List.forall_mem_singleton.mpr id
  have hgoes : ∀ {u : World σ E} {got'}, u.Unframed → Gathered w got' u → got' <+: got →
      u.content.length < u.capacity := by
    rintro u got' hu hg ⟨more, rfl⟩
    have hpre := hfits.of_append
    rw [received_append, ← List.append_assoc, ← hg.content, ← hg.capacity] at hpre
    exact hpre.of_append.lt hu (by rw [hg.capacity]; omega)
  obtain ⟨hgot, hlt⟩ := ht.not_isEmptyRead hlead hroom hgoes
  refine List.forall_mem_append.mpr ⟨hgot, List.forall_mem_cons.mpr ⟨id, ?_⟩⟩
  refine List.forall_mem_singleton.mpr fun hnil => ?_
  obtain rfl : buf = [] := hnil
  rw [List.length_nil] at hlen
  omega

/-! ### The reads of `connect` -/

/-- What has become of the bytes that `connect` received. -/
structure Greeting (capacity : Nat) (evs : List (Event E)) (r : Outcome (Error E) ConnAck)
    (w' : World σ E) : Prop where
  roomy : 5 ≤ capacity → Fits capacity (received evs) ∨ TooLarge capacity (received evs) →
    ∀ e ∈ evs, ¬e.IsEmptyRead
  reports : ∀ e, Settled e → check (received evs) capacity = .err e → r = .err (.readError e)
  going : w'.state ≠ .disconnected →
    (∃ items, Reads (Packet.next capacity) (received evs) items w'.content) ∧
      (0 < capacity → w'.content.length < w'.capacity)

theorem received_of_not_isRead (h : ∀ e ∈ evs, ¬e.IsRead) : received evs = [] := by
  refine List.flatMap_eq_nil_iff.mpr fun e he => ?_
  cases e with
  | wrote | clock => rfl
  | read => exact absurd trivial (h _ he)

theorem Event.IsEmptyRead.isRead {e : Event E} (h : e.IsEmptyRead) : e.IsRead := by
  cases e with
  | wrote | clock => exact h
  | read => trivial

/-- Nothing has been read. -/
theorem Greeting.of_not_isRead {capacity : Nat} {r : Outcome (Error E) ConnAck} {w' : World σ E}
    (h : ∀ e ∈ evs, ¬e.IsRead)
    (hgoing : w'.state ≠ .disconnected → w'.content = [] ∧ w'.capacity = capacity) :
    Greeting capacity evs r w' where
  roomy _ _ e he hempty := h e he hempty.isRead
  reports e he hcheck := by
    rw [received_of_not_isRead h] at hcheck
    cases hcheck
    cases he
  going hopen := by
    obtain ⟨hnil, hcap⟩ := hgoing hopen
    rw [received_of_not_isRead h, hnil, hcap]
    exact ⟨⟨[], .nil []⟩, id⟩

/-- Calls before the first read do not matter. -/
theorem Greeting.behind {capacity : Nat} {pre : List (Event E)} {r : Outcome (Error E) ConnAck}
    {w' : World σ E} (h : Greeting capacity evs r w') (hpre : ∀ e ∈ pre, ¬e.IsRead) :
    Greeting capacity (pre ++ evs) r w' := by
  have hreceived : received (pre ++ evs) = received evs := by
    rw [received_append, received_of_not_isRead hpre, List.nil_append]
  refine ⟨?_, ?_, ?_⟩
  all_goals rw [hreceived]
  · exact fun hcap hstream => List.forall_mem_append.mpr
      ⟨fun e he hempty => hpre e he hempty.isRead, h.roomy hcap hstream⟩
  · exact h.reports
  · exact h.going

theorem Event.Fails.received {e : Event E} (h : e.Fails) : e.received = [] := by
  cases e with
  | wrote | clock => rfl
  | read _ result =>
    rcases result with _ | _ | _ | n
    all_goals first | rfl | exact h.elim

theorem World.Short.not_settled (h : w.Short)
    (hmax : w.client.transportClient.maxPacketSize = w.capacity) {e : Umqtt.Error}
    (he : Settled e) : check w.content w.capacity ≠ .err e := by
  intro hcheck
  obtain ⟨k, hk⟩ := h
  rw [World.read, hmax, Packet.read, hcheck] at hk
  cases hk
  cases he

theorem World.Short.lt (h : w.Short)
    (hmax : w.client.transportClient.maxPacketSize = w.capacity) (hcap : 5 ≤ w.capacity)
    (hstream : Fits w.capacity w.content ∨ TooLarge w.capacity w.content) :
    w.content.length < w.capacity := by
  obtain ⟨k, hk⟩ := h
  rw [World.read, hmax] at hk
  rcases hstream with hfits | hlarge
  · refine hfits.lt ?_ (by omega)
    rintro ⟨fh, hfh⟩
    exact Packet.read_ne_needMoreData hfh _ _ hk
  · exact hlarge.lt hcap ⟨k, hk⟩

theorem readConnack_greeting (hv : w.Valid) (hs : w.state = .transportConnected)
    (hmax : w.client.transportClient.maxPacketSize = w.capacity) (hnil : w.content = [])
    (hr : (readConnack p w).1 ≠ .panic) :
    ∃ evs, Logged w evs (readConnack p w).2 ∧
      Greeting w.capacity evs (readConnack p w).1 (readConnack p w).2 := by
  obtain ⟨got, t, result, buf, ht, hlen, hend⟩ := readConnack_polls p hv hs
  have hg := ht.gathered
  have hmaxOf : ∀ {got u}, Gathered w got u →
      u.client.transportClient.maxPacketSize = u.capacity := fun hu => by
    rw [hu.maxPacketSize, hu.capacity, hmax]
  have hroomy : 5 ≤ w.capacity → Fits w.capacity (received (got ++ [.read none result buf])) ∨
      TooLarge w.capacity (received (got ++ [.read none result buf])) →
      ∀ e ∈ got ++ [.read none result buf], ¬e.IsEmptyRead := by
    intro hcap hstream
    have hlead : ∀ {u : World σ E} {pre timeout}, ConnackLead u pre timeout →
        ∀ e ∈ pre, ¬e.IsEmptyRead := by
      rintro u pre timeout ⟨rfl, -⟩
      exact nofun
    have hgoes : ∀ {u : World σ E} {got'}, u.Short → Gathered w got' u → got' <+: got →
        u.content.length < u.capacity := by
      rintro u got' hu hgot ⟨more, rfl⟩
      refine hu.lt (hmaxOf hgot) (by rw [hgot.capacity]; exact hcap) ?_
      rw [hgot.capacity, hgot.content, hnil, List.nil_append]
      rw [List.append_assoc, received_append] at hstream
      exact hstream.imp Fits.of_append TooLarge.of_append
    have hroom : w.content.length < w.capacity := by
      rw [hnil, List.length_nil]
      omega
    obtain ⟨hgot, hlt⟩ := ht.not_isEmptyRead hlead hroom hgoes
    refine List.forall_mem_append.mpr ⟨hgot, List.forall_mem_singleton.mpr fun hnil => ?_⟩
    obtain rfl : buf = [] := hnil
    rw [List.length_nil] at hlen
    omega
  generalize (readConnack p w).1 = r at hend hr ⊢
  generalize (readConnack p w).2 = w' at hend ⊢
  cases hend with
  | panicked => exact absurd rfl hr
  | broke hb he =>
    have hall := Broke.of_gathered hg hb
    have hclosed : w'.state = .disconnected := hall.state
    refine ⟨_, hall.toLogged, hroomy, fun e he hcheck => ?_, fun hgoing => absurd hclosed hgoing⟩
    have hnone : received [Event.read none result buf] = [] := by
      rw [received, List.flatMap_singleton, (@Broke.fails _ _ _ _ [] _ hb).received]
    rw [received_append, hnone, List.append_nil] at hcheck
    rcases ht.goes_or with hstart | hshort
    · rw [← List.nil_append (received got), ← hnil, ← hg.content, hstart, hnil] at hcheck
      cases hcheck
      cases he
    · rw [← List.nil_append (received got), ← hnil, ← hg.content, ← hg.capacity] at hcheck
      exact absurd hcheck (hshort.not_settled (hmaxOf hg) he)
  | @took n _ u _ r hn hle hc htake hne =>
    have hu := hg.trans hc.gathered
    have hcontent : u.content = received (got ++ [.read none (.ok (some n)) buf]) := by
      rw [hu.content, hnil, List.nil_append]
    have hstate := hu.state.trans hs
    have htaken := connackTaken hu.valid hstate
    rw [htake] at htaken
    have hlog := hu.toLogged.trans (htaken.logged hu.valid)
    rw [List.append_nil] at hlog
    have hreports : ∀ e, Settled e →
        check (received (got ++ [.read none (.ok (some n)) buf])) w.capacity = .err e →
        Act.lastTurn r = .err (.readError e) := by
      intro e he hcheck
      rw [← hcontent, ← hu.capacity, ← hmaxOf hu] at hcheck
      cases htake.symm.trans (takeConnack_of_hopeless hu.valid hstate he hcheck)
      rfl
    refine ⟨_, hlog, hroomy, hreports, ?_⟩
    cases htaken with
    | more => exact absurd rfl hne
    | @accepted ack taken _ hread _ _ _ hvalid hcap hdrop =>
      rw [World.read, hmaxOf hu, hu.capacity, hcontent] at hread
      obtain ⟨h2, htakenle, -⟩ := Packet.read_eq_ok hread
      refine fun _ => ⟨?_, fun hpos => ?_⟩
      · rw [hdrop, hcontent]
        exact ⟨_, .cons (Packet.next_eq_some.mpr hread) (.nil _)⟩
      · have hle := (length_content hu.valid).2
        rw [hdrop, List.length_drop, hcap, hu.capacity]
        rw [hu.capacity] at hle
        omega
    | refused | rejected => exact fun hgoing => absurd rfl hgoing

theorem connect_greeting (options : ConnectOptions)
    (hmax : w.client.transportClient.maxPacketSize = w.capacity)
    (hr : (connect p options w).1 ≠ .panic) :
    ∃ evs, Logged w evs (connect p options w).2 ∧
      Greeting w.capacity evs (connect p options w).1 (connect p options w).2 := by
  rcases connect_cases p options w with
    ⟨-, e, b, -, hc⟩ | ⟨-, ⟨e, s, -, hc⟩ | ⟨s, -, hc⟩⟩
  · have hlog : Logged w [] ((w.opened options).withTx b) :=
      ⟨(List.append_nil _).symm, Nat.zero_le _, rfl, rfl⟩
    rw [hc]
    exact ⟨[], hlog, .of_not_isRead nofun fun _ => ⟨rfl, rfl⟩⟩
  · rw [hc]
    refine ⟨[.wrote .transportConnected (connectBytes options) (.error e)],
      ⟨rfl, Nat.zero_le _, rfl, rfl⟩, .of_not_isRead ?_ fun h => absurd rfl h⟩
    exact List.forall_mem_singleton.mpr id
  · have hsound := @readConnack_greeting _ _ p (w.greeted options (p.now s).1 s (p.now s).2)
      valid_greeted state_greeted (maxPacketSize_greeted.trans hmax) content_greeted
    rw [hc] at hr ⊢
    obtain ⟨evs, hlog, hevs⟩ := hsound hr
    refine ⟨_, logged_greeted.trans hlog, hevs.behind ?_⟩
    exact List.forall_mem_cons.mpr ⟨id, List.forall_mem_singleton.mpr id⟩

end Reads

end NanoClient

end Umqtt
