/-
Umqtt/Borrowed.lean

Safe access to received bytes.

The decoder indexes and slices without a check wherever it has tested a length
before, and the packets it returns point into the bytes it took.  In the model an
access outside of a slice, a sum beyond the range of a `usize` and a loop that
does not end are panics, so that `read_safe` says for any bytes that the decoder
has none of them, nor have the iterations over the lists of what it accepted.
-/
import Umqtt.Grammar

namespace Umqtt

open Effects Wire

/-! ### Iterating over received lists -/

/-- An iteration over a received list comes to an end and stays there. -/
def Storage.Iterates {α : Type} (next : Act (List UInt8) Empty (Option α)) :
    Storage α → Prop
  | slice _ => True
  | wireBytes bytes => ∃ items rest,
      drainAll next bytes = (.ok items, rest) ∧ next rest = (.ok none, rest)

/-- The items of a list. -/
def Storage.items {α : Type} (next : Act (List UInt8) Empty (Option α)) (self : Storage α) :
    List α :=
  match self.iter next with
  | .ok items => items
  | _ => []

/-- The bytes that a received list is kept as. -/
def Storage.bytes {α : Type} : Storage α → List (List UInt8)
  | slice _ => []
  | wireBytes bytes => [bytes]

section Lists

variable {α : Type} {next : Act (List UInt8) Empty (Option α)} {entry : α → List UInt8}
  {valid : α → Prop}

theorem Storage.iterates (h : Decodes next entry valid) (self : Storage α) :
    self.Iterates next := by
  cases self with
  | slice items => trivial
  | wireBytes bytes =>
    obtain ⟨items, rest, hsplit, hdrain⟩ := h.drain_split bytes
    exact ⟨items, rest, hdrain, h.next_none rest hsplit.rest⟩

theorem Storage.items_wireBytes (h : Decodes next entry valid) {as : List α}
    (hv : ∀ a ∈ as, valid a) : (wireBytes (as.flatMap entry)).items next = as := by
  simp only [items, iter, h.drain_flatMap hv]

end Lists

namespace Packet

def Iterates : Packet → Prop
  | subscribe p => p.filters.Iterates Subscribe.BytesIterator.next
  | subAck p => p.returnCodes.Iterates SubAck.BytesIterator.next
  | unsubscribe p => p.topics.Iterates Unsubscribe.WireBytesIter.next
  | _ => True

/-- The strings, byte fields, payloads and lists that a received packet points to,
those of the items of its list included. -/
def borrowed : Packet → List (List UInt8)
  | connect p => asBytes p.clientId ::
      (p.lastWill.elim [] (fun w => [asBytes w.topic, w.message]) ++
        p.login.elim [] (fun l => [asBytes l.username, l.password]))
  | publish p => [asBytes p.topic, p.payload]
  | subscribe p => p.filters.bytes ++
      (p.filters.items Subscribe.BytesIterator.next).map fun f => asBytes f.path
  | subAck p => p.returnCodes.bytes
  | unsubscribe p => p.topics.bytes ++
      (p.topics.items Unsubscribe.WireBytesIter.next).map asBytes
  | _ => []

/-! ### Where the fields stand -/

theorem infix_lenPrefixed (bs : List UInt8) : bs <:+: lenPrefixed bs :=
  (List.suffix_append _ _).isInfix

/-- A list in a packet, and the field of each of its items. -/
theorem infix_list {α : Type} {entry field : α → List UInt8} {as : List α} {s : List UInt8}
    (hfield : ∀ a, field a <:+: entry a) (hs : s ∈ [as.flatMap entry] ++ as.map field) :
    s <:+: as.flatMap entry := by
  rcases List.mem_append.mp hs with hs | hs
  · obtain rfl := List.mem_singleton.mp hs
    exact List.infix_rfl
  · obtain ⟨a, ha, rfl⟩ := List.mem_map.mp hs
    exact (hfield a).trans (List.infix_of_mem_flatten (List.mem_map_of_mem ha))

theorem infix_announced {f bit : UInt8} {bs field : List UInt8}
    (h : Connect.Announced f bit bs field) : bs <:+: field := by
  rcases h with ⟨-, rfl, rfl⟩ | ⟨-, -, rfl⟩
  · exact List.infix_rfl
  · exact infix_lenPrefixed bs

theorem infix_connect {p : Connect} {f : UInt8} {fields : List UInt8} (h : p.Layout f fields) :
    ∀ s ∈ (connect p).borrowed, s <:+: fields := by
  obtain ⟨-, -, -, willField, loginField, hwill, hlogin, rfl⟩ := h
  have hfields : lenPrefixed (asBytes "MQTT") ++ (4 :: f :: (toBeBytes p.keepAlive ++
      (lenPrefixed (asBytes p.clientId) ++ (willField ++ loginField)))) =
      [lenPrefixed (asBytes "MQTT") ++ [4, f], toBeBytes p.keepAlive,
        lenPrefixed (asBytes p.clientId), willField, loginField].flatten := by simp
  rw [hfields]
  intro s hs
  rcases List.mem_cons.mp hs with rfl | hs
  · exact (infix_lenPrefixed _).trans (List.infix_of_mem_flatten (by simp))
  rcases List.mem_append.mp hs with hs | hs
  · have hw : willField ∈ [lenPrefixed (asBytes "MQTT") ++ [4, f], toBeBytes p.keepAlive,
        lenPrefixed (asBytes p.clientId), willField, loginField] := by simp
    refine List.IsInfix.trans ?_ (List.infix_of_mem_flatten hw)
    rcases hwill with ⟨-, -, hnone, -⟩ | ⟨-, w, -, -, -, hsome, rfl⟩
    · rw [hnone] at hs
      cases hs
    · rw [hsome] at hs
      have hmem : s = asBytes w.topic ∨ s = w.message := by simpa using hs
      rcases hmem with rfl | rfl
      · exact (infix_lenPrefixed _).trans (List.prefix_append _ _).isInfix
      · exact (infix_lenPrefixed _).trans (List.suffix_append _ _).isInfix
  · have hl : loginField ∈ [lenPrefixed (asBytes "MQTT") ++ [4, f], toBeBytes p.keepAlive,
        lenPrefixed (asBytes p.clientId), willField, loginField] := by simp
    refine List.IsInfix.trans ?_ (List.infix_of_mem_flatten hl)
    obtain ⟨username, password, userField, passField, huser, hpass, hlogin, rfl⟩ := hlogin
    rw [hlogin] at hs
    split at hs
    · cases hs
    · have hmem : s = asBytes username ∨ s = password := by simpa using hs
      rcases hmem with rfl | rfl
      · exact (infix_announced huser).trans (List.prefix_append _ _).isInfix
      · exact (infix_announced hpass).trans (List.suffix_append _ _).isInfix

/-- What a packet points to is among the bytes of its fields. -/
theorem Fields.infix_of_borrowed {p : Packet} {byte1 : UInt8} {fields : List UInt8}
    (h : Fields byte1 fields p) : ∀ s ∈ p.borrowed, s <:+: fields := by
  intro s hs
  cases p with
  | connect p =>
    obtain ⟨f, hlayout⟩ := h
    exact infix_connect hlayout s hs
  | publish p =>
    obtain ⟨-, -, rfl⟩ := h
    have hmem : s = asBytes p.topic ∨ s = p.payload := by simpa [borrowed] using hs
    rcases hmem with rfl | rfl
    · exact (infix_lenPrefixed _).trans (List.prefix_append _ _).isInfix
    · exact (List.suffix_append _ _).isInfix.trans (List.suffix_append _ _).isInfix
  | subscribe p =>
    obtain ⟨filters, -, hshort, rfl, hfilters⟩ := h
    rw [borrowed, hfilters, Storage.items_wireBytes Subscribe.decodes hshort] at hs
    refine (infix_list (fun filter => ?_) hs).trans (List.suffix_append _ _).isInfix
    exact (infix_lenPrefixed (asBytes filter.path)).trans (List.prefix_append _ _).isInfix
  | subAck p =>
    obtain ⟨codes, -, rfl, hcodes⟩ := h
    rw [borrowed, hcodes] at hs
    obtain rfl := List.mem_singleton.mp hs
    exact (List.suffix_append _ _).isInfix
  | unsubscribe p =>
    obtain ⟨topics, hshort, rfl, htopics⟩ := h
    rw [borrowed, htopics, Storage.items_wireBytes Unsubscribe.decodes hshort] at hs
    exact (infix_list (fun topic => infix_lenPrefixed (asBytes topic)) hs).trans
      (List.suffix_append _ _).isInfix
  | connAck | pubAck | pubRec | pubRel | pubComp | unsubAck | pingReq | pingResp | disconnect =>
    cases hs

theorem Fields.iterates {p : Packet} {byte1 : UInt8} {fields : List UInt8}
    (h : Fields byte1 fields p) : p.Iterates := by
  cases p with
  | subscribe p => exact p.filters.iterates Subscribe.decodes
  | subAck p =>
    obtain ⟨codes, -, -, hcodes⟩ := h
    rw [Iterates, hcodes]
    exact ⟨codes, [], (SubAck.yields_map codes).drain (by simp), rfl⟩
  | unsubscribe p => exact p.topics.iterates Unsubscribe.decodes
  | _ => trivial

/-! ### The decoder -/

/-- The decoder does not panic, and what it accepts can be iterated and points to
bytes that it took. -/
theorem read_safe (data : List UInt8) (max : Nat) :
    read data max ≠ .panic ∧ ∀ p n, read data max = .ok (p, n) →
      n ≤ data.length ∧ p.Iterates ∧ ∀ s ∈ p.borrowed, s <:+: data.take n := by
  refine ⟨read_ne_panic data max, fun p n hread => ?_⟩
  obtain ⟨byte1, lenBytes, fields, ignored, hframe, htake⟩ := frame_of_read hread
  refine ⟨(read_eq_ok hread).2.1, hframe.fields.iterates, fun s hs => ?_⟩
  rw [htake]
  refine (hframe.fields.infix_of_borrowed s hs).trans ⟨byte1 :: lenBytes, ignored, ?_⟩
  rw [List.cons_append, List.cons_append, List.append_assoc]

end Packet

end Umqtt
