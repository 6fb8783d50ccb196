/-
Umqtt/Lib/Entries.lean

Lists that are kept as the concatenation of their encoded entries and decoded
by an iterator.

An iterator `Decodes entry valid` if it takes one entry of a valid item off the
front of the data, and stops without taking anything when the data does not
start with one.  Draining it then splits any data into the entries it starts
with and a rest that starts with none (`Decodes.drain_split`), and this split
is what the result is (`Decodes.drain_of_split`), so that concatenating entries
and draining them are inverse.
-/
import Umqtt.Lib.Loops

namespace Wire

open Effects

variable {β ε α : Type}

/-- `next` takes one entry of a valid item off the front of the data. -/
structure Decodes (next : Act (List β) ε (Option α)) (entry : α → List β)
    (valid : α → Prop) : Prop where
  entry_ne_nil : ∀ a, entry a ≠ []
  next_entry : ∀ a c, valid a → next (entry a ++ c) = (.ok (some a), c)
  next_none : ∀ c, (∀ a c', valid a → c ≠ entry a ++ c') → next c = (.ok none, c)

/-- `c` is the concatenation of the entries of `as` and a rest `c'` that starts
with no entry. -/
structure Split (entry : α → List β) (valid : α → Prop) (c : List β) (as : List α)
    (c' : List β) : Prop where
  all : ∀ a ∈ as, valid a
  eq : c = as.flatMap entry ++ c'
  rest : ∀ a c'', valid a → c' ≠ entry a ++ c''

/-- What draining an iterator over `c` comes to. -/
def drainAll (next : Act (List β) ε (Option α)) (c : List β) : Outcome ε (List α) × List β :=
  Act.drain next (c.length + 1) c

section Decodes

variable {next : Act (List β) ε (Option α)} {entry : α → List β} {valid : α → Prop}
  {c c' : List β} {a : α} {as : List α}

theorem Split.cons (ha : valid a) (h : Split entry valid c as c') :
    Split entry valid (entry a ++ c) (a :: as) c' where
  all := List.forall_mem_cons.mpr ⟨ha, h.all⟩
  eq := by rw [List.flatMap_cons, List.append_assoc, ← h.eq]
  rest := h.rest

theorem Split.length_le (h : Split entry valid c as c') (hne : ∀ a, entry a ≠ []) :
    as.length ≤ c.length := by
  have hflat : ∀ as : List α, as.length ≤ (as.flatMap entry).length := by
    intro as
    induction as with
    | nil => exact Nat.le_refl 0
    | cons a as ih =>
      have := List.length_pos_iff.mpr (hne a)
      rw [List.flatMap_cons, List.length_append, List.length_cons]
      omega
  have := hflat as
  rw [h.eq, List.length_append]
  omega

theorem Decodes.yields (h : Decodes next entry valid) : ∀ {as : List α} {c : List β},
    Split entry valid c as c' → Act.Yields next c as c' := by
  intro as
  induction as with
  | nil =>
    intro c hs
    obtain rfl : c = c' := by simpa using hs.eq
    exact .nil (h.next_none c hs.rest)
  | cons a as ih =>
    intro c hs
    obtain ⟨ha, has⟩ := List.forall_mem_cons.mp hs.all
    have hc : c = entry a ++ (as.flatMap entry ++ c') := by
      rw [hs.eq, List.flatMap_cons, List.append_assoc]
    rw [hc]
    exact .cons (h.next_entry a _ ha) (ih ⟨has, rfl, hs.rest⟩)

theorem Decodes.drain_of_split (h : Decodes next entry valid) (hs : Split entry valid c as c') :
    drainAll next c = (.ok as, c') :=
  (h.yields hs).drain (Nat.lt_succ_of_le (hs.length_le h.entry_ne_nil))

theorem exists_split (valid : α → Prop) (hne : ∀ a, entry a ≠ []) :
    ∀ (n : Nat) (c : List β), c.length ≤ n → ∃ as c', Split entry valid c as c' := by
  intro n
  induction n with
  | zero =>
    intro c hc
    obtain rfl : c = [] := List.eq_nil_of_length_eq_zero (Nat.le_zero.mp hc)
    refine ⟨[], [], by simp, rfl, fun a c'' _ h => hne a ?_⟩
    exact (List.append_eq_nil_iff.mp h.symm).1
  | succ n ih =>
    intro c hc
    by_cases hstart : ∃ a c', valid a ∧ c = entry a ++ c'
    · obtain ⟨a, c', ha, rfl⟩ := hstart
      have := List.length_pos_iff.mpr (hne a)
      rw [List.length_append] at hc
      obtain ⟨as, c'', hs⟩ := ih c' (by omega)
      exact ⟨a :: as, c'', hs.cons ha⟩
    · exact ⟨[], c, by simp, rfl, fun a c' ha h => hstart ⟨a, c', ha, h⟩⟩

/-- Draining splits any data. -/
theorem Decodes.drain_split (h : Decodes next entry valid) (c : List β) :
    ∃ as c', Split entry valid c as c' ∧ drainAll next c = (.ok as, c') := by
  obtain ⟨as, c', hs⟩ := exists_split valid h.entry_ne_nil c.length c (Nat.le_refl _)
  exact ⟨as, c', hs, h.drain_of_split hs⟩

/-- Concatenated entries are drained to the items they came from. -/
theorem Decodes.drain_flatMap (h : Decodes next entry valid) (hv : ∀ a ∈ as, valid a) :
    drainAll next (as.flatMap entry) = (.ok as, []) :=
  h.drain_of_split ⟨hv, (List.append_nil _).symm, fun a _ _ heq =>
    h.entry_ne_nil a (List.append_eq_nil_iff.mp heq.symm).1⟩

theorem Decodes.eq_of_drainAll (h : Decodes next entry valid) {bs : List α}
    (ha : ∀ a ∈ as, valid a) (hb : ∀ b ∈ bs, valid b)
    (heq : (drainAll next (as.flatMap entry)).1 = (drainAll next (bs.flatMap entry)).1) :
    as = bs := by
  rw [h.drain_flatMap ha, h.drain_flatMap hb] at heq
  exact Outcome.ok.inj heq

end Decodes

end Wire
