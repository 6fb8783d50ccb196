/-
Umqtt/Packetview/Subscribe.lean

The SUBSCRIBE packet (`packetview/subscribe.rs`).

A list of filters is a slice of filters, or the bytes of a packet that are
decoded each time the list is iterated.  A received packet is accepted iff its
payload is the concatenation of the entries of one filter or more
(`readExact_frame_eq_ok`), so that the iteration loses nothing.
-/
import Umqtt.Packetview.Fields

namespace Umqtt

open Effects Wire

/-! ### Subscription filters -/

/-- Subscription filter -/
structure SubscribeFilter where
  path : String
  qos : QoS
  deriving DecidableEq

namespace SubscribeFilter

/-- filter len + filter + options -/
def len (self : SubscribeFilter) : Nat := 2 + (asBytes self.path).length + 1

def write (self : SubscribeFilter) : Act WriteCursor WriteError Unit := do
  let options : UInt8 := 0 ||| self.qos.toU8
  writeMqttString self.path
  WriteCursor.putU8 options

/-- The bytes of a filter. -/
def entry (self : SubscribeFilter) : List UInt8 :=
  lenPrefixed (asBytes self.path) ++ [self.qos.toU8]

/-- A filter whose path fits behind a 16-bit length. -/
def Short (self : SubscribeFilter) : Prop := (asBytes self.path).length ≤ 65535

@[simp] theorem length_entry (self : SubscribeFilter) : self.entry.length = self.len := by
  rw [entry, len, List.length_append, length_lenPrefixed]
  rfl

theorem emits_write (self : SubscribeFilter) :
    Emits WriteError.notEnoughCapacity self.write self.entry () := by
  refine (emits_writeMqttString _).bind ?_
  rw [UInt8.zero_or]
  exact WriteCursor.emits_putU8 _

end SubscribeFilter

/-! ### Lists of filters -/

namespace Subscribe

/-- The iterator over encoded filters.  It leaves the bytes alone when they do
not start with a filter. -/
def BytesIterator.next : Act (List UInt8) Empty (Option SubscribeFilter) := do
  match ← Act.gets id with
  | hi :: lo :: dataSlice => do
      let topicLen := (fromBeBytes hi lo).toNat
      let needed ← Act.lift (usizeAdd 1 topicLen)
      if dataSlice.length < needed then
        pure none
      else do
        let path ← Act.lift (slice dataSlice 0 topicLen)
        match fromUtf8 path with
        | none => pure none
        | some path => do
            let byte ← Act.lift (index dataSlice topicLen)
            match Umqtt.qos byte with
            | .ok qos => do
                let restStart ← Act.lift (usizeAdd topicLen 1)
                let rest ← Act.lift (slice dataSlice restStart dataSlice.length)
                Act.modify fun _ => rest
                pure (some { path, qos })
            | _ => pure none
  | _ => pure none

end Subscribe

/-- Subscription packet -/
structure Subscribe where
  pkid : UInt16
  filters : Storage SubscribeFilter
  deriving DecidableEq

namespace Subscribe

def new (packetId : UInt16) (filters : List SubscribeFilter) : Subscribe where
  pkid := packetId
  filters := .slice filters

/-- len of pkid + subscribe filter len -/
def len (self : Subscribe) : Outcome Empty Nat := do
  let filters ← self.filters.iter BytesIterator.next
  pure (2 + filters.foldl (fun s t => s + t.len) 0)

def readExact (fixedHeader : FixedHeader) (bytes : List UInt8) : Outcome Error Subscribe :=
  readBody fixedHeader bytes do
    let pkid ← readU16
    let bytes ← Act.gets id
    let bytesIter := drainAll BytesIterator.next bytes
    let filters ← Act.liftTotal bytesIter.1
    if filters.length = 0 then
      Act.fail .emptySubscription
    else if !bytesIter.2.isEmpty then
      Act.fail .malformedPacket
    else
      pure { pkid, filters := .wireBytes bytes }

def write (self : Subscribe) : Act (List UInt8) WriteError Nat :=
  onBuffer do
    -- write packet type
    WriteCursor.putU8 0x82
    -- write remaining length
    let remainingLen ← Act.liftTotal self.len
    let _ ← writeRemainingLength remainingLen
    -- write packet id
    WriteCursor.putU16 self.pkid
    -- write filters
    let filters ← Act.liftTotal (self.filters.iter BytesIterator.next)
    Act.forEach SubscribeFilter.write filters
    WriteCursor.bytesWritten

/-! ### What the iterator yields -/

section Iterator

variable {c c' : List UInt8} {f : SubscribeFilter}

theorem index_append (l : List UInt8) (b : UInt8) (l' : List UInt8) :
    (index (l ++ b :: l') l.length : Outcome Empty UInt8) = .ok b := by
  simp [index]

/-- A 16-bit length leaves room in a `usize`. -/
theorem usizeAdd_one (n : UInt16) :
    (usizeAdd 1 n.toNat : Outcome Empty Nat) = .ok (1 + n.toNat) ∧
      (usizeAdd n.toNat 1 : Outcome Empty Nat) = .ok (n.toNat + 1) := by
  have hlt := n.toNat_lt
  exact ⟨usizeAdd_of_lt (by omega), usizeAdd_of_lt (by omega)⟩

/-- The iterator in front of a path of the announced length. -/
theorem next_apply {hi lo byte : UInt8} {p c : List UInt8}
    (h : (fromBeBytes hi lo).toNat = p.length) :
    BytesIterator.next (hi :: lo :: (p ++ byte :: c)) =
      match fromUtf8 p, qos byte with
      | some path, .ok q => (.ok (some ⟨path, q⟩), c)
      | _, _ => (.ok none, hi :: lo :: (p ++ byte :: c)) := by
  have hdata : (p ++ byte :: c).length = p.length + (c.length + 1) := by simp
  have hpath : (slice (p ++ byte :: c) 0 p.length : Outcome Empty _) = .ok p := by
    rw [slice_zero (by omega), List.take_left]
  have hrest : (slice (p ++ byte :: c) (p.length + 1) (p ++ byte :: c).length : Outcome Empty _) =
      .ok c := by
    rw [slice_to_end (by omega), ← List.drop_drop, List.drop_left]
    rfl
  obtain ⟨hneeded, hstart⟩ := usizeAdd_one (fromBeBytes hi lo)
  rw [h] at hneeded hstart
  simp only [BytesIterator.next, Act.bind_apply, Act.gets_apply, id_eq, h, Act.lift_apply, hneeded]
  rw [if_neg (by omega), Act.bind_of_ok (by rw [Act.lift_apply, hpath])]
  cases fromUtf8 p with
  | none => rfl
  | some path =>
    dsimp only
    rw [Act.bind_of_ok (by rw [Act.lift_apply, index_append])]
    cases qos byte with
    | ok q =>
      dsimp only
      rw [Act.bind_of_ok (by rw [Act.lift_apply, hstart]),
        Act.bind_of_ok (by rw [Act.lift_apply, hrest])]
      rfl
    | err e => rfl
    | panic => rfl

theorem next_entry (h : f.Short) (c : List UInt8) :
    BytesIterator.next (f.entry ++ c) = (.ok (some f), c) := by
  have hbytes : f.entry ++ c =
      UInt8.ofNat ((UInt16.ofNat (asBytes f.path).length).toNat / 256) ::
        UInt8.ofNat ((UInt16.ofNat (asBytes f.path).length).toNat % 256) ::
          (asBytes f.path ++ f.qos.toU8 :: c) := by
    simp only [SubscribeFilter.entry, lenPrefixed, toBeBytes, List.cons_append, List.nil_append,
      List.append_assoc]
  rw [hbytes, next_apply (by rw [fromBeBytes_toBeBytes, toNat_ofNat_length h]), fromUtf8_asBytes,
    qos_toU8]

/-- The iterator takes an entry, or finds none and stays. -/
theorem next_cases (c : List UInt8) :
    (∃ f c', f.Short ∧ c = f.entry ++ c' ∧
      BytesIterator.next c = (.ok (some f), c')) ∨
    BytesIterator.next c = (.ok none, c) := by
  match c with
  | [] => exact .inr rfl
  | [_] => exact .inr rfl
  | hi :: lo :: data =>
    by_cases hlen : data.length < 1 + (fromBeBytes hi lo).toNat
    · refine .inr ?_
      simp only [BytesIterator.next, Act.bind_apply, Act.gets_apply, id_eq, Act.lift_apply,
        (usizeAdd_one (fromBeBytes hi lo)).1]
      rw [if_pos hlen]
      rfl
    · have hp : (data.take (fromBeBytes hi lo).toNat).length = (fromBeBytes hi lo).toNat := by
        rw [List.length_take]
        omega
      have hsplit := List.take_append_drop (fromBeBytes hi lo).toNat data
      rcases hd : data.drop (fromBeBytes hi lo).toNat with _ | ⟨byte, c'⟩
      · have := congrArg List.length hd
        rw [List.length_drop, List.length_nil] at this
        omega
      · generalize data.take (fromBeBytes hi lo).toNat = p at hp hsplit
        rw [hd] at hsplit
        rw [← hsplit, next_apply hp.symm]
        rcases hpath : fromUtf8 p with - | path
        · exact .inr rfl
        · rcases hq : qos byte with q | e | _
          · obtain rfl := fromUtf8_eq_some.mp hpath
            obtain rfl := qos_eq_ok.mp hq
            have hlt := (fromBeBytes hi lo).toNat_lt
            refine .inl ⟨⟨path, q⟩, c', ?_, ?_, rfl⟩
            · show (asBytes path).length ≤ 65535
              omega
            · rw [SubscribeFilter.entry, lenPrefixed, hp, UInt16.ofNat_toNat, toBeBytes_fromBeBytes]
              simp
          · exact .inr rfl
          · exact .inr rfl

theorem decodes : Decodes BytesIterator.next SubscribeFilter.entry SubscribeFilter.Short where
  entry_ne_nil f := by simp [SubscribeFilter.entry]
  next_entry _ c h := next_entry h c
  next_none c h := by
    rcases next_cases c with ⟨f, c', hf, hc, -⟩ | hnone
    · exact absurd hc (h f c' hf)
    · exact hnone

end Iterator

/-! ### The bytes of a SUBSCRIBE -/

/-- The body of a SUBSCRIBE with the filters `filters`. -/
def body (pkid : UInt16) (filters : List SubscribeFilter) : List UInt8 :=
  toBeBytes pkid ++ filters.flatMap SubscribeFilter.entry

theorem foldl_len (filters : List SubscribeFilter) (n : Nat) :
    filters.foldl (fun s t => s + t.len) n =
      n + (filters.flatMap SubscribeFilter.entry).length := by
  induction filters generalizing n with
  | nil => rfl
  | cons f fs ih =>
    rw [List.foldl_cons, ih, List.flatMap_cons, List.length_append, f.length_entry]
    omega

theorem len_eq {self : Subscribe} {filters : List SubscribeFilter}
    (h : self.filters.iter BytesIterator.next = .ok filters) :
    self.len = .ok (body self.pkid filters).length := by
  rw [len, h, Outcome.ok_bind, foldl_len, body, List.length_append, length_toBeBytes]
  simp

theorem writes {self : Subscribe} {filters : List SubscribeFilter}
    (h : self.filters.iter BytesIterator.next = .ok filters)
    (hlen : (body self.pkid filters).length ≤ 268435455) :
    Writes WriteError.notEnoughCapacity self.write (frame 0x82 (body self.pkid filters)) := by
  have hfilters : Fills WriteError.notEnoughCapacity
      (do let filters ← Act.liftTotal (self.filters.iter BytesIterator.next)
          Act.forEach SubscribeFilter.write filters
          WriteCursor.bytesWritten) (filters.flatMap SubscribeFilter.entry) := by
    rw [h]
    exact ((Emits.forEach SubscribeFilter.emits_write filters).bindFills fills_len).congr
      (List.append_nil _)
  have hbody := fills_frame 0x82 (body self.pkid filters)
    ((WriteCursor.emits_putU16 self.pkid).bindFills (g := fun _ => _) hfilters) rfl hlen
  have hwrite : self.write = onBuffer (do
      WriteCursor.putU8 0x82
      let _ ← writeRemainingLength (body self.pkid filters).length
      WriteCursor.putU16 self.pkid
      let filters ← Act.liftTotal (self.filters.iter BytesIterator.next)
      Act.forEach SubscribeFilter.write filters
      WriteCursor.bytesWritten) := by
    rw [write, len_eq h]
    rfl
  rw [hwrite]
  exact hbody.writes

theorem refuses {self : Subscribe} {n : Nat} (hlen : self.len = .ok n) (h : 268435455 < n)
    (buf : List UInt8) : ∃ e buf', self.write buf = (.err e, buf') ∧ buf'.length = buf.length := by
  have hrefuses := fun x => (@refuses_frame 0x82 n h Nat x).onBuffer buf
  simp only [write, hlen]
  exact hrefuses _

/-- A SUBSCRIBE is accepted iff its body has one filter or more, and nothing but
filters. -/
theorem readExact_eq_ok {fh : FixedHeader} {lenBytes body : List UInt8} (h : fh.OnWire lenBytes)
    {self : Subscribe} :
    readExact fh (fh.byte1 :: (lenBytes ++ body)) = .ok self ↔
      ∃ filters, filters ≠ [] ∧ (∀ f ∈ filters, f.Short) ∧
        body = Subscribe.body self.pkid filters ∧
        self.filters = .wireBytes (filters.flatMap SubscribeFilter.entry) := by
  rw [readExact, readBody_eq_ok h]
  constructor
  · rintro ⟨c, hc⟩
    obtain ⟨pkid, payload, hpkid, hrest⟩ := Act.bind_eq_ok.mp hc
    obtain ⟨filters, rest, hs, hdrain⟩ := decodes.drain_split payload
    simp only [Act.bind_apply, Act.gets_apply, id_eq, hdrain, Act.liftTotal_ok,
      List.length_eq_zero_iff] at hrest
    by_cases hne : filters = []
    · rw [if_pos hne] at hrest
      cases hrest
    · rw [if_neg hne] at hrest
      by_cases hend : rest.isEmpty
      · rw [hend] at hrest
        have heq := hs.eq
        rw [List.isEmpty_iff.mp hend, List.append_nil] at heq
        subst heq
        cases hrest
        exact ⟨filters, hne, hs.all, readU16_eq_ok.mp hpkid, rfl⟩
      · rw [Bool.not_eq_true] at hend
        rw [hend] at hrest
        cases hrest
  · rintro ⟨filters, hne, hshort, rfl, hfilters⟩
    refine ⟨filters.flatMap SubscribeFilter.entry, ?_⟩
    rw [Subscribe.body, Act.bind_of_ok (readU16_append _ _)]
    simp only [Act.bind_apply, Act.gets_apply, id_eq, decodes.drain_flatMap hshort,
      Act.liftTotal_ok, List.length_eq_zero_iff]
    rw [if_neg hne, ← hfilters]
    rfl

/-- The payloads that are accepted. -/
theorem readExact_frame_eq_ok {pkid : UInt16} {payload : List UInt8} {s : Subscribe}
    (hlen : (toBeBytes pkid ++ payload).length ≤ 268435455) :
    readExact (frameHeader 0x82 (toBeBytes pkid ++ payload))
        (frame 0x82 (toBeBytes pkid ++ payload)) = .ok s ↔
      ∃ filters, filters ≠ [] ∧ (∀ f ∈ filters, f.Short) ∧
        payload = filters.flatMap SubscribeFilter.entry ∧ s = ⟨pkid, .wireBytes payload⟩ := by
  refine (readExact_eq_ok (onWire_frameHeader hlen)).trans ?_
  obtain ⟨pkid', storage⟩ := s
  constructor
  · rintro ⟨filters, hne, hshort, hbody, rfl⟩
    obtain ⟨hpkid, rfl⟩ := List.append_inj hbody rfl
    rw [toBeBytes_inj.mp hpkid]
    exact ⟨filters, hne, hshort, rfl, rfl⟩
  · rintro ⟨filters, hne, hshort, rfl, hs⟩
    cases hs
    exact ⟨filters, hne, hshort, rfl, rfl⟩

/-- Reading the bytes back. -/
theorem readExact_frame {pkid : UInt16} {filters : List SubscribeFilter} (hne : filters ≠ [])
    (hshort : ∀ f ∈ filters, f.Short) (hlen : (body pkid filters).length ≤ 268435455) :
    readExact (frameHeader 0x82 (body pkid filters)) (frame 0x82 (body pkid filters)) =
      .ok ⟨pkid, .wireBytes (filters.flatMap SubscribeFilter.entry)⟩ :=
  (readExact_frame_eq_ok hlen).mpr ⟨filters, hne, hshort, rfl, rfl⟩

theorem errsIn_readExact {fh : FixedHeader} {lenBytes body : List UInt8}
    (h : fh.OnWire lenBytes) :
    (readExact fh (fh.byte1 :: (lenBytes ++ body))).ErrsIn Settled := by
  refine errsIn_readBody (errs_readU16.bind fun pkid => (Act.Errs.gets _).bind fun bytes => ?_) h
  obtain ⟨filters, rest, -, hdrain⟩ := decodes.drain_split bytes
  rw [hdrain]
  exact .ite (.fail rfl) (.ite (.fail rfl) (.pure _))

end Subscribe

end Umqtt
