/-
Umqtt/Lib/Iterators.lean

Iterators that are called from outside, one item at a time.

`Serves next s as` says what every call returns, also those behind the end: the
items of `as` in order, and none from then on.  It is proved by following the
calls with the list of the items that are left (`Serves.of_step`).

The iterators of the standard library that are used are here with what they
serve: over one item, over a slice, over an array, and `Peekable`, which holds
one item of the iterator inside back and serves what that one serves
(`Peekable.Holds`).
-/
import Umqtt.Lib.Loops

namespace Effects

/-- A type whose values are called for one item after the other. -/
class Iterator (I : Type) (Item : outParam Type) where
  next : Act I Empty (Option Item)

class Clone (I : Type) where
  clone : I → I

/-- A clone is the same value. -/
class LawfulClone (I : Type) [Clone I] : Prop where
  clone_eq (self : I) : Clone.clone self = self

namespace Act

variable {σ ε α : Type}

/-- Call `next` `k` times, whatever it returns. -/
def calls (next : Act σ ε (Option α)) : Nat → Act σ ε Unit
  | 0 => pure ()
  | k + 1 => do
      let _ ← next
      calls next k

/-- From `s` on, call after call returns the items of `as`, and none behind them. -/
def Serves (next : Act σ ε (Option α)) (s : σ) (as : List α) : Prop :=
  ∀ k, ∃ t, calls next k s = (.ok (), t) ∧ (next t).1 = .ok as[k]?

variable {next : Act σ ε (Option α)} {s : σ} {as : List α}

theorem Serves.step (h : Serves next s as) :
    ∃ t, next s = (.ok as.head?, t) ∧ Serves next t as.tail := by
  obtain ⟨_, hs, hnext⟩ := h 0
  cases hs
  rw [← List.head?_eq_getElem?] at hnext
  have heq : next s = (.ok as.head?, (next s).2) := by rw [← hnext]
  refine ⟨_, heq, ?_⟩
  intro k
  obtain ⟨t, ht, hnext⟩ := h (k + 1)
  rw [calls, bind_of_ok heq] at ht
  refine ⟨t, ht, ?_⟩
  rw [hnext, List.getElem?_tail]

/-- If a call returns the first of the items that are left, and leaves the rest of
them, then every call does. -/
theorem Serves.of_step {R : σ → List α → Prop}
    (hstep : ∀ s as, R s as → ∃ t, next s = (.ok as.head?, t) ∧ R t as.tail) (h : R s as) :
    Serves next s as := by
  intro k
  induction k generalizing s as with
  | zero =>
    obtain ⟨t, ht, -⟩ := hstep s as h
    exact ⟨s, rfl, by rw [ht, List.head?_eq_getElem?]⟩
  | succ k ih =>
    obtain ⟨t, ht, hR⟩ := hstep s as h
    obtain ⟨u, hu, hnext⟩ := ih hR
    refine ⟨u, ?_, ?_⟩
    · rw [calls, bind_of_ok ht]
      exact hu
    · rw [hnext, List.getElem?_tail]

/-- Behind `k` calls, the first `k` items are gone. -/
theorem Serves.calls (h : Serves next s as) (k : Nat) :
    ∃ t, calls next k s = (.ok (), t) ∧ Serves next t (as.drop k) := by
  induction k generalizing s as with
  | zero => exact ⟨s, rfl, h⟩
  | succ k ih =>
    obtain ⟨t, ht, htail⟩ := h.step
    obtain ⟨u, hu, hdrop⟩ := ih htail
    refine ⟨u, ?_, ?_⟩
    · rw [Act.calls, bind_of_ok ht]
      exact hu
    · rwa [List.drop_tail] at hdrop

/-- It yields the items, and none again and again. -/
theorem Serves.yields (h : Serves next s as) :
    ∃ t, Yields next s as t ∧ Serves next t [] := by
  induction as generalizing s with
  | nil =>
    obtain ⟨t, ht, hnil⟩ := h.step
    exact ⟨t, .nil ht, hnil⟩
  | cons a as ih =>
    obtain ⟨t, ht, htail⟩ := h.step
    obtain ⟨u, hu, hnil⟩ := ih htail
    exact ⟨u, .cons ht hu, hnil⟩

end Act

/-! ### Iterators over what is at hand -/

section Sources

variable {α : Type}

/-- `core::iter::Once` -/
structure Once (α : Type) where
  inner : Option α

instance : Iterator (Once α) α := ⟨fun self => (.ok self.inner, ⟨none⟩)⟩

instance : Clone (Once α) := ⟨fun self => ⟨self.inner⟩⟩

instance : LawfulClone (Once α) := ⟨fun _ => rfl⟩

theorem serves_once (a : α) : Act.Serves Iterator.next (Once.mk (some a)) [a] := by
  refine Act.Serves.of_step (R := fun (self : Once α) as => as = self.inner.toList) ?_ rfl
  rintro ⟨_ | b⟩ _ rfl <;> exact ⟨_, rfl, rfl⟩

/-- `core::slice::Iter` -/
structure SliceIter (α : Type) where
  rest : List α

instance : Iterator (SliceIter α) α := ⟨fun self => (.ok self.rest.head?, ⟨self.rest.tail⟩)⟩

instance : Clone (SliceIter α) := ⟨fun self => ⟨self.rest⟩⟩

instance : LawfulClone (SliceIter α) := ⟨fun _ => rfl⟩

theorem serves_slice (as : List α) : Act.Serves Iterator.next (SliceIter.mk as) as := by
  refine Act.Serves.of_step (R := fun (self : SliceIter α) as => as = self.rest) ?_ rfl
  rintro self _ rfl
  exact ⟨_, rfl, rfl⟩

/-- `core::array::IntoIter`: the array, and the index of the first item that is
left. -/
structure IntoIter (α : Type) (n : Nat) where
  data : Vector α n
  start : Nat

variable {n : Nat}

instance : Iterator (IntoIter α n) α :=
  ⟨fun self =>
    if h : self.start < n then
      (.ok (some self.data[self.start]), { self with start := self.start + 1 })
    else
      (.ok none, self)⟩

instance : Clone (IntoIter α n) := ⟨fun self => ⟨self.data, self.start⟩⟩

instance : LawfulClone (IntoIter α n) := ⟨fun _ => rfl⟩

theorem serves_array (data : Vector α n) :
    Act.Serves Iterator.next (IntoIter.mk data 0) data.toList := by
  refine Act.Serves.of_step
    (R := fun (self : IntoIter α n) as => as = self.data.toList.drop self.start) ?_ rfl
  rintro ⟨data, start⟩ _ rfl
  by_cases h : start < n
  · have hdrop : data.toList.drop start = data[start] :: data.toList.drop (start + 1) := by
      rw [List.drop_eq_getElem_cons (by rw [Vector.length_toList]; exact h), Vector.getElem_toList]
    refine ⟨⟨data, start + 1⟩, ?_, congrArg List.tail hdrop⟩
    rw [hdrop]
    exact dif_pos h
  · have hdrop : data.toList.drop start = [] :=
      List.drop_eq_nil_of_le (by rw [Vector.length_toList]; exact Nat.le_of_not_lt h)
    refine ⟨⟨data, start⟩, ?_, ?_⟩
    · rw [hdrop]
      exact dif_neg h
    · show (data.toList.drop start).tail = _
      rw [hdrop]
      rfl

end Sources

/-! ### One item ahead -/

/-- `core::iter::Peekable`: the iterator inside, and what it last returned if that
has been looked at only. -/
structure Peekable (I Item : Type) where
  iter : I
  peeked : Option (Option Item)

namespace Peekable

variable {I Item : Type}

def new (iter : I) : Peekable I Item := { iter, peeked := none }

instance [Clone I] : Clone (Peekable I Item) := ⟨fun self => ⟨Clone.clone self.iter, self.peeked⟩⟩

instance [Clone I] [LawfulClone I] : LawfulClone (Peekable I Item) where
  clone_eq self := congrArg (Peekable.mk · self.peeked) (LawfulClone.clone_eq self.iter)

variable [Iterator I Item]

/-- A call of the iterator inside. -/
def pull : Act (Peekable I Item) Empty (Option Item) :=
  Act.zoom iter (fun iter self => { self with iter }) Iterator.next

def next : Act (Peekable I Item) Empty (Option Item) := do
  match ← Act.gets peeked with
  | some item => do
      Act.modify fun self => { self with peeked := none }
      pure item
  | none => pull

def peek : Act (Peekable I Item) Empty (Option Item) := do
  match ← Act.gets peeked with
  | some item => pure item
  | none => do
      let item ← pull
      Act.modify fun self => { self with peeked := some item }
      pure item

/-- The items that are left are those of the iterator inside, behind the one that
has been looked at. -/
inductive Holds : Peekable I Item → List Item → Prop where
  | unseen {iter : I} {as : List Item} (h : Act.Serves Iterator.next iter as) :
      Holds ⟨iter, none⟩ as
  | seen {iter : I} {as : List Item} (h : Act.Serves Iterator.next iter as.tail) :
      Holds ⟨iter, some as.head?⟩ as

variable {self : Peekable I Item} {as : List Item}

theorem pull_of_step {iter t : I} {peeked : Option (Option Item)} {item : Option Item}
    (h : Iterator.next iter = (.ok item, t)) :
    pull (⟨iter, peeked⟩ : Peekable I Item) = (.ok item, ⟨t, peeked⟩) := by
  rw [pull, Act.zoom_apply, h]

theorem Holds.next (h : self.Holds as) :
    ∃ t, next self = (.ok as.head?, t) ∧ t.Holds as.tail := by
  cases h with
  | seen h => exact ⟨_, rfl, .unseen h⟩
  | unseen h =>
    obtain ⟨t, ht, htail⟩ := h.step
    exact ⟨_, pull_of_step ht, .unseen htail⟩

/-- Looking ahead takes nothing. -/
theorem Holds.peek (h : self.Holds as) : ∃ t, peek self = (.ok as.head?, t) ∧ t.Holds as := by
  cases h with
  | seen h => exact ⟨_, rfl, .seen h⟩
  | unseen h =>
    obtain ⟨t, ht, htail⟩ := h.step
    exact ⟨_, (Act.bind_of_ok (pull_of_step ht)).trans rfl, .seen htail⟩

end Peekable

end Effects
