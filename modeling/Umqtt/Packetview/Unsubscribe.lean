/-
Umqtt/Packetview/Unsubscribe.lean

The UNSUBSCRIBE packet (`packetview/unsubscribe.rs`).  The list of topics may be
empty; the topics of a received packet stay bytes until they are iterated.
-/
import Umqtt.Packetview.Fields

namespace Umqtt

open Effects Wire

/-- Unsubscribe packet -/
structure Unsubscribe where
  pkid : UInt16
  topics : Storage String
  deriving DecidableEq

namespace Unsubscribe

/-- The iterator over encoded topics.  It leaves the bytes alone when they do
not start with a topic. -/
def WireBytesIter.next : Act (List UInt8) Empty (Option String) := do
  let bytes ← Act.gets id
  match (readMqttString bytes).1 with
  | .ok res => do
      let restStart ← Act.lift (usizeAdd 2 (asBytes res).length)
      let rest ← Act.lift (slice bytes restStart bytes.length)
      Act.modify fun _ => rest
      pure (some res)
  | .err _ => pure none
  | .panic => Act.panic

/-- len of pkid + vec![subscribe topics len] -/
def len (self : Unsubscribe) : Outcome Empty Nat := do
  let topics ← self.topics.iter WireBytesIter.next
  pure (2 + topics.foldl (fun s t => s + (asBytes t).length + 2) 0)

/-- `while !bytes.as_slice().is_empty() { read_mqtt_string(&mut bytes)?; }` -/
def readTopicsBody : Act Cursor Error (Option Unit) := do
  if (← Act.gets id).isEmpty then
    pure (some ())
  else do
    let _ ← readMqttString
    pure none

def readExact (fixedHeader : FixedHeader) (bytes : List UInt8) : Outcome Error Unsubscribe :=
  readBody fixedHeader bytes do
    let pkid ← readU16
    let topics ← Act.gets id
    Act.loop readTopicsBody (topics.length + 1)
    pure { pkid, topics := .wireBytes topics }

def write (self : Unsubscribe) : Act (List UInt8) WriteError Nat :=
  onBuffer do
    let remainingLen ← Act.liftTotal self.len
    WriteCursor.putU8 0xA2
    let _ ← writeRemainingLength remainingLen
    WriteCursor.putU16 self.pkid
    let topics ← Act.liftTotal (self.topics.iter WireBytesIter.next)
    Act.forEach writeMqttString topics
    WriteCursor.bytesWritten

/-! ### What the iterator yields -/

/-- The bytes of a topic. -/
def entry (topic : String) : List UInt8 := lenPrefixed (asBytes topic)

/-- A topic that fits behind a 16-bit length. -/
def Short (topic : String) : Prop := (asBytes topic).length ≤ 65535

theorem decodes : Decodes WireBytesIter.next entry Short where
  entry_ne_nil topic := by simp [entry, lenPrefixed, toBeBytes]
  next_entry topic c h := by
    have hread : readMqttString (entry topic ++ c) = (.ok topic, c) := readMqttString_append h c
    have hlen : 2 + (asBytes topic).length = (entry topic).length := (length_lenPrefixed _).symm
    have hrest : (slice (entry topic ++ c) (entry topic).length (entry topic ++ c).length :
        Outcome Empty _) = .ok c := by
      rw [slice_to_end (by rw [List.length_append]; omega), List.drop_left]
    have hstart : (usizeAdd 2 (asBytes topic).length : Outcome Empty Nat) =
        .ok (entry topic).length := by
      have hshort : (asBytes topic).length ≤ 65535 := h
      rw [usizeAdd_of_lt (by omega), hlen]
    simp only [WireBytesIter.next, Act.bind_apply, Act.gets_apply, id_eq, hread, hstart,
      Act.lift_apply, hrest, Act.modify_apply, Act.pure_apply]
  next_none c h := by
    simp only [WireBytesIter.next, Act.bind_apply, Act.gets_apply, id_eq]
    have herr := errs_readMqttString c
    rcases hread : readMqttString c with ⟨s | e | _, c'⟩
    · obtain ⟨hs, hc⟩ := readMqttString_eq_ok.mp hread
      exact absurd hc (h s c' hs)
    · rfl
    · rw [hread] at herr
      exact herr.elim

/-! ### The bytes of an UNSUBSCRIBE -/

def body (pkid : UInt16) (topics : List String) : List UInt8 :=
  toBeBytes pkid ++ topics.flatMap entry

theorem foldl_len (topics : List String) (n : Nat) :
    topics.foldl (fun s t => s + (asBytes t).length + 2) n =
      n + (topics.flatMap entry).length := by
  induction topics generalizing n with
  | nil => rfl
  | cons t ts ih =>
    rw [List.foldl_cons, ih, List.flatMap_cons, List.length_append, entry, length_lenPrefixed]
    omega

theorem len_eq {self : Unsubscribe} {topics : List String}
    (h : self.topics.iter WireBytesIter.next = .ok topics) :
    self.len = .ok (body self.pkid topics).length := by
  rw [len, h, Outcome.ok_bind, foldl_len, body, List.length_append, length_toBeBytes]
  simp

theorem writes {self : Unsubscribe} {topics : List String}
    (h : self.topics.iter WireBytesIter.next = .ok topics)
    (hlen : (body self.pkid topics).length ≤ 268435455) :
    Writes WriteError.notEnoughCapacity self.write (frame 0xA2 (body self.pkid topics)) := by
  have htopics : Fills WriteError.notEnoughCapacity
      (do let topics ← Act.liftTotal (self.topics.iter WireBytesIter.next)
          Act.forEach writeMqttString topics
          WriteCursor.bytesWritten) (topics.flatMap entry) := by
    rw [h]
    exact ((Emits.forEach emits_writeMqttString topics).bindFills fills_len).congr
      (List.append_nil _)
  have hbody := fills_frame 0xA2 (body self.pkid topics)
    ((WriteCursor.emits_putU16 self.pkid).bindFills (g := fun _ => _) htopics) rfl hlen
  have hwrite : self.write = onBuffer (do
      WriteCursor.putU8 0xA2
      let _ ← writeRemainingLength (body self.pkid topics).length
      WriteCursor.putU16 self.pkid
      let topics ← Act.liftTotal (self.topics.iter WireBytesIter.next)
      Act.forEach writeMqttString topics
      WriteCursor.bytesWritten) := by
    rw [write, len_eq h]
    rfl
  rw [hwrite]
  exact hbody.writes

theorem refuses {self : Unsubscribe} {n : Nat} (hlen : self.len = .ok n) (h : 268435455 < n)
    (buf : List UInt8) : ∃ e buf', self.write buf = (.err e, buf') ∧ buf'.length = buf.length := by
  have hrefuses := fun x => (@refuses_frame 0xA2 n h Nat x).onBuffer buf
  simp only [write, hlen]
  exact hrefuses _

/-! ### Reading the bytes back -/

theorem readTopicsBody_nil : readTopicsBody [] = (.ok (some ()), []) := rfl

/-- A turn of the loop takes a topic. -/
theorem readTopicsBody_eq_none {c c' : Cursor} :
    readTopicsBody c = (.ok none, c') ↔ ∃ topic, Short topic ∧ c = entry topic ++ c' := by
  cases c with
  | nil =>
    rw [readTopicsBody_nil]
    simp [entry, lenPrefixed, toBeBytes]
  | cons b c =>
    have hstep : readTopicsBody (b :: c) =
        (do let _ ← readMqttString; pure none : Act Cursor Error (Option Unit)) (b :: c) := rfl
    rw [hstep, Act.bind_eq_ok]
    constructor
    · rintro ⟨topic, d, hread, hd⟩
      obtain rfl : d = c' := (Prod.mk.inj hd).2
      exact ⟨topic, readMqttString_eq_ok.mp hread⟩
    · rintro ⟨topic, h⟩
      exact ⟨topic, c', readMqttString_eq_ok.mpr h, rfl⟩

theorem loop_readTopicsBody {topics : List String} (h : ∀ t ∈ topics, Short t) :
    ∀ {n : Nat}, (topics.flatMap entry).length < n →
      Act.loop readTopicsBody n (topics.flatMap entry) = (.ok (), []) := by
  induction topics with
  | nil =>
    rintro (_ | n) hn
    · exact absurd hn (Nat.not_lt_zero _)
    · exact Act.loop_succ_of_last (fun s' => by rw [List.flatMap_nil, readTopicsBody_nil]; simp)
  | cons t ts ih =>
    obtain ⟨ht, hts⟩ := List.forall_mem_cons.mp h
    rintro (_ | n) hn
    · exact absurd hn (Nat.not_lt_zero _)
    · rw [List.flatMap_cons] at hn ⊢
      rw [Act.loop_succ_of_none (readTopicsBody_eq_none.mpr ⟨t, ht, rfl⟩)]
      rw [List.length_append, entry, length_lenPrefixed] at hn
      exact ih hts (by omega)

/-- A loop that ends has taken topics to the end. -/
theorem exists_topics_of_loop {n : Nat} : ∀ {c c' : Cursor},
    Act.loop readTopicsBody n c = (.ok (), c') →
      ∃ topics : List String, (∀ t ∈ topics, Short t) ∧ c = topics.flatMap entry := by
  induction n with
  | zero => rintro c c' ⟨⟩
  | succ n ih =>
    intro c c' hloop
    rw [Act.loop] at hloop
    obtain ⟨r, t, hbody, hrest⟩ := Act.bind_eq_ok.mp hloop
    cases r with
    | none =>
      obtain ⟨topic, hshort, rfl⟩ := readTopicsBody_eq_none.mp hbody
      obtain ⟨topics, hall, rfl⟩ := ih hrest
      exact ⟨topic :: topics, List.forall_mem_cons.mpr ⟨hshort, hall⟩, rfl⟩
    | some u =>
      cases c with
      | nil => exact ⟨[], by simp, rfl⟩
      | cons b c =>
        -- with bytes left, a turn takes a topic or fails
        have hturn : (do let _ ← readMqttString; pure none : Act Cursor Error (Option Unit))
            (b :: c) = (.ok (some u), t) := hbody
        obtain ⟨topic, d, -, hd⟩ := Act.bind_eq_ok.mp hturn
        cases hd

/-- An UNSUBSCRIBE is accepted iff its body has nothing but topics. -/
theorem readExact_eq_ok {fh : FixedHeader} {lenBytes body : List UInt8} (h : fh.OnWire lenBytes)
    {self : Unsubscribe} :
    readExact fh (fh.byte1 :: (lenBytes ++ body)) = .ok self ↔
      ∃ topics, (∀ t ∈ topics, Short t) ∧ body = Unsubscribe.body self.pkid topics ∧
        self.topics = .wireBytes (topics.flatMap entry) := by
  rw [readExact, readBody_eq_ok h]
  constructor
  · rintro ⟨c, hc⟩
    obtain ⟨pkid, payload, hpkid, hrest⟩ := Act.bind_eq_ok.mp hc
    rw [Act.bind_of_ok (Act.gets_apply _ _), id_eq] at hrest
    obtain ⟨_, t, hloop, hself⟩ := Act.bind_eq_ok.mp hrest
    obtain ⟨topics, hshort, rfl⟩ := exists_topics_of_loop hloop
    cases hself
    exact ⟨topics, hshort, readU16_eq_ok.mp hpkid, rfl⟩
  · rintro ⟨topics, hshort, rfl, htopics⟩
    refine ⟨[], ?_⟩
    rw [Unsubscribe.body, Act.bind_of_ok (readU16_append _ _),
      Act.bind_of_ok (Act.gets_apply _ _), id_eq,
      Act.bind_of_ok (loop_readTopicsBody hshort (Nat.lt_succ_self _)), ← htopics]
    rfl

theorem readExact_frame {pkid : UInt16} {topics : List String} (hshort : ∀ t ∈ topics, Short t)
    (hlen : (body pkid topics).length ≤ 268435455) :
    readExact (frameHeader 0xA2 (body pkid topics)) (frame 0xA2 (body pkid topics)) =
      .ok ⟨pkid, .wireBytes (topics.flatMap entry)⟩ :=
  (readExact_eq_ok (onWire_frameHeader hlen)).mpr ⟨topics, hshort, rfl, rfl⟩

theorem errsIn_readExact {fh : FixedHeader} {lenBytes body : List UInt8}
    (h : fh.OnWire lenBytes) :
    (readExact fh (fh.byte1 :: (lenBytes ++ body))).ErrsIn Settled := by
  refine errsIn_readBody (errs_readU16.bind fun pkid c => ?_) h
  have hloop : (Act.loop readTopicsBody (c.length + 1) c).1.ErrsIn Settled := by
    refine Act.errsIn_loop (m := List.length) (fun c => ?_) (fun c c' hc => ?_)
      (Nat.lt_succ_self _)
    · cases c with
      | nil => exact trivial
      | cons b c => exact (errs_readMqttString.bind fun _ => .pure _) (b :: c)
    · obtain ⟨topic, -, rfl⟩ := readTopicsBody_eq_none.mp hc
      rw [List.length_append, entry, length_lenPrefixed]
      omega
  rw [Act.bind_of_ok (Act.gets_apply _ _), id_eq, Act.bind_apply]
  rcases hl : Act.loop readTopicsBody (c.length + 1) c with ⟨u | e | _, c'⟩
  · exact trivial
  all_goals rwa [hl] at hloop

end Unsubscribe

end Umqtt
