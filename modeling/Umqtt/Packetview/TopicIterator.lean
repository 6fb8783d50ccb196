/-
Umqtt/Packetview/TopicIterator.lean

The iterator over the parts of a topic (`packetview/topic_iterator.rs`), with a
`/` between each two of them.

Two flags say what the next call is for: the first part, a separator, or the part
behind a separator.  A separator is returned only if the iterator inside has
another part, which `peek` finds out without taking it, so that a part always
follows (`Left.part`).  Whatever finite iterator is inside, the items are those
of `List.intersperse` (`serves_new`).
-/
import Umqtt.Lib.Iterators

namespace Umqtt

open Effects

/-- A slice iterator whose items are dereferenced. -/
structure Deref where
  iter : SliceIter String

instance : Iterator Deref String :=
  ⟨Act.zoom Deref.iter (fun iter self => { self with iter }) Iterator.next⟩

instance : Clone Deref := ⟨fun self => ⟨Clone.clone self.iter⟩⟩

instance : LawfulClone Deref where
  clone_eq self := congrArg Deref.mk (LawfulClone.clone_eq self.iter)

theorem serves_deref (parts : List String) :
    Act.Serves Iterator.next (Deref.mk ⟨parts⟩) parts := by
  refine Act.Serves.of_step (R := fun (self : Deref) as => Act.Serves Iterator.next self.iter as)
    ?_ (serves_slice parts)
  intro self as h
  obtain ⟨t, ht, htail⟩ := h.step
  refine ⟨⟨t⟩, ?_, htail⟩
  show Act.zoom Deref.iter _ Iterator.next self = _
  rw [Act.zoom_apply, ht]

/-- An iterator that iterates over one or multiple strings and can create a topic
string from this. -/
structure TopicIterator (I : Type) where
  iter : Peekable I String
  first : Bool
  prevWasSeparator : Bool

namespace TopicIterator

variable {I : Type}

def new (iter : I) : TopicIterator I :=
  { iter := .new iter, first := true, prevWasSeparator := false }

/-- `From<&str>` -/
def fromStr (iter : String) : TopicIterator (Once String) := new ⟨some iter⟩

/-- `From<&[&str]>` -/
def fromSlice (iter : List String) : TopicIterator Deref := new ⟨⟨iter⟩⟩

/-- `From<[&str; N]>` -/
def fromArray {n : Nat} (value : Vector String n) : TopicIterator (IntoIter String n) :=
  new ⟨value, 0⟩

instance [Clone I] : Clone (TopicIterator I) :=
  ⟨fun self =>
    { iter := Clone.clone self.iter
      first := self.first
      prevWasSeparator := self.prevWasSeparator }⟩

instance [Clone I] [LawfulClone I] : LawfulClone (TopicIterator I) where
  clone_eq self := congrArg (TopicIterator.mk · self.first self.prevWasSeparator)
    (LawfulClone.clone_eq self.iter)

/-- A call of a method of the iterator inside. -/
def onIter {α : Type} (x : Act (Peekable I String) Empty α) : Act (TopicIterator I) Empty α :=
  Act.zoom iter (fun iter self => { self with iter }) x

theorem onIter_apply {α : Type} {x : Act (Peekable I String) Empty α}
    {iter iter' : Peekable I String} {r : Outcome Empty α} {first prevWasSeparator : Bool}
    (h : x iter = (r, iter')) :
    onIter x ⟨iter, first, prevWasSeparator⟩ = (r, ⟨iter', first, prevWasSeparator⟩) := by
  rw [onIter, Act.zoom_apply, h]

variable [Iterator I String]

def next : Act (TopicIterator I) Empty (Option String) := do
  if ← Act.gets first then
    Act.modify fun self => { self with first := false }
    onIter Peekable.next
  else if !(← Act.gets prevWasSeparator) then
    match ← onIter Peekable.peek with
    | some _ =>
      Act.modify fun self => { self with prevWasSeparator := true }
      pure (some "/")
    | none => pure none
  else
    Act.modify fun self => { self with prevWasSeparator := false }
    onIter Peekable.next

instance : Iterator (TopicIterator I) String := ⟨next⟩

/-! ### What is left to yield -/

/-- Each part behind a separator. -/
def separated (parts : List String) : List String := parts.flatMap fun part => ["/", part]

theorem intersperse_cons (part : String) (parts : List String) :
    (part :: parts).intersperse "/" = part :: separated parts := by
  induction parts generalizing part with
  | nil => rfl
  | cons q parts ih =>
    rw [List.intersperse_cons_cons, ih]
    rfl

/-- The items that are left, from the flags and the parts that are left. -/
inductive Left : TopicIterator I → List String → Prop where
  | first {iter : Peekable I String} {parts : List String} (h : iter.Holds parts) :
      Left ⟨iter, true, false⟩ (parts.intersperse "/")
  | separator {iter : Peekable I String} {parts : List String} (h : iter.Holds parts) :
      Left ⟨iter, false, false⟩ (separated parts)
  | part {iter : Peekable I String} {part : String} {parts : List String}
      (h : iter.Holds (part :: parts)) : Left ⟨iter, false, true⟩ (part :: separated parts)

/-- In front of a separator, the part behind it is looked at only. -/
theorem next_separator {iter iter' : Peekable I String} {part : Option String}
    (h : Peekable.peek iter = (.ok part, iter')) :
    next ⟨iter, false, false⟩ = (.ok (part.map fun _ => "/"), ⟨iter', false, part.isSome⟩) := by
  refine (Act.bind_of_ok (onIter_apply h)).trans ?_
  cases part <;> rfl

/-- One call returns the first item that is left. -/
theorem Left.step {self : TopicIterator I} {items : List String} (h : Left self items) :
    ∃ t, next self = (.ok items.head?, t) ∧ Left t items.tail := by
  cases h with
  | @first iter parts h =>
    obtain ⟨iter', hnext, htail⟩ := h.next
    refine ⟨⟨iter', false, false⟩, (onIter_apply hnext).trans ?_, ?_⟩
    · cases parts with
      | nil => rfl
      | cons part parts => rw [intersperse_cons]; rfl
    · cases parts with
      | nil => exact .separator htail
      | cons part parts => rw [intersperse_cons]; exact .separator htail
  | @separator iter parts h =>
    obtain ⟨iter', hpeek, hparts⟩ := h.peek
    refine ⟨⟨iter', false, parts.head?.isSome⟩, (next_separator hpeek).trans ?_, ?_⟩
    · cases parts <;> rfl
    · cases parts with
      | nil => exact .separator hparts
      | cons part parts => exact .part hparts
  | @part iter part parts h =>
    obtain ⟨iter', hnext, htail⟩ := h.next
    exact ⟨⟨iter', false, false⟩, onIter_apply hnext, .separator htail⟩

/-- Over any finite iterator, the parts come in order with a separator between
each two of them, and nothing behind the last. -/
theorem serves_new {iter : I} {parts : List String}
    (h : Act.Serves Iterator.next iter parts) :
    Act.Serves Iterator.next (new iter) (parts.intersperse "/") :=
  Act.Serves.of_step (fun _ _ => Left.step) (.first (.unseen h))

/-! ### The topic -/

theorem join_intersperse (parts : List String) :
    String.join (parts.intersperse "/") = "/".intercalate parts := by
  induction parts with
  | nil => rw [List.intersperse_nil, String.join_nil, String.intercalate_nil]
  | cons part parts ih =>
    cases parts with
    | nil => simp
    | cons q parts =>
      rw [List.intersperse_cons_cons, String.join_cons, String.join_cons, ih,
        String.intercalate_cons_cons, String.append_assoc]

/-- What the iterator does over `parts`: call after call, drained, joined, and
cloned behind any number of calls. -/
structure Intersperses [Clone I] (self : TopicIterator I) (parts : List String) : Prop where
  calls : Act.Serves Iterator.next self (parts.intersperse "/")
  drained : ∀ fuel, 2 * parts.length < fuel → ∃ items last,
    Act.drain Iterator.next fuel self = (.ok items, last) ∧
      Act.Serves Iterator.next last [] ∧ items = parts.intersperse "/" ∧
      String.join items = "/".intercalate parts
  clone : ∀ k, ∃ t, Act.calls Iterator.next k self = (.ok (), t) ∧
    Act.Serves Iterator.next t ((parts.intersperse "/").drop k) ∧
      Act.Serves Iterator.next (Clone.clone t) ((parts.intersperse "/").drop k)

theorem intersperses_new [Clone I] [LawfulClone I] {iter : I} {parts : List String}
    (h : Act.Serves Iterator.next iter parts) : (new iter).Intersperses parts := by
  have hserves := serves_new h
  constructor
  · exact hserves
  · intro fuel hfuel
    obtain ⟨last, hyields, hlast⟩ := hserves.yields
    have hlen : (parts.intersperse "/").length < fuel := by
      rw [List.length_intersperse]
      omega
    exact ⟨_, last, hyields.drain hlen, hlast, rfl, join_intersperse parts⟩
  · intro k
    obtain ⟨t, ht, hrest⟩ := hserves.calls k
    refine ⟨t, ht, hrest, ?_⟩
    rw [LawfulClone.clone_eq]
    exact hrest

/-- Each of the constructors: from one string, from a slice and from an array. -/
theorem topic_iterator :
    (∀ part, (fromStr part).Intersperses [part]) ∧
    (∀ parts, (fromSlice parts).Intersperses parts) ∧
    ∀ (n : Nat) (parts : Vector String n), (fromArray parts).Intersperses parts.toList :=
  ⟨fun part => intersperses_new (serves_once part),
    fun parts => intersperses_new (serves_deref parts),
    fun _ parts => intersperses_new (serves_array parts)⟩

example : (Act.drain Iterator.next 9 (fromSlice ["a", "", "/"])).1 =
    .ok ["a", "/", "", "/", "/"] := rfl

end TopicIterator

end Umqtt
