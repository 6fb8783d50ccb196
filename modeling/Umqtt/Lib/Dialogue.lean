/-
Umqtt/Lib/Dialogue.lean

User code that is handed an interface and nothing else, such as a closure that
gets a writer.  All it can do is to ask (call a method), look at the answer, and
go on; in the end it returns a result.  `Dialogue Q A ε α` is the tree of what
it does: a node is a query of type `Q` with one branch for each answer, and an
answer is what the method returned, an error included, so that a dialogue may
ignore errors or propagate them.

`run` lets a handler answer.  `asked` is the record of the queries with their
answers, in order.  The induction over dialogues is packaged once:
`run_induction` carries a relation between the record so far and the state from
one answer to the next, to the end of any dialogue.
-/
import Umqtt.Lib.Effects

namespace Effects

/-- What a caller of the methods `Q` does, to end in an `α` or an error. -/
inductive Dialogue (Q : Type) (A : Q → Type) (ε α : Type) where
  | done (r : Except ε α)
  | ask (q : Q) (next : Except ε (A q) → Dialogue Q A ε α)

namespace Dialogue

variable {Q : Type} {A : Q → Type} {σ ε α : Type}

/-- Let `handler` answer the queries. -/
def run (handler : (q : Q) → Act σ ε (A q)) : Dialogue Q A ε α → Act σ ε α
  | done (.ok a) => fun s => (.ok a, s)
  | done (.error e) => fun s => (.err e, s)
  | ask q next => fun s =>
      match handler q s with
      | (.ok a, s') => (next (.ok a)).run handler s'
      | (.err e, s') => (next (.error e)).run handler s'
      | (.panic, s') => (.panic, s')

/-- Ask all the queries in order, and end with the first error. -/
def all : List Q → Dialogue Q A ε Unit
  | [] => done (.ok ())
  | q :: qs => ask q fun
      | .ok _ => all qs
      | .error e => done (.error e)

/-- The queries and the answers they get. -/
def asked (handler : (q : Q) → Act σ ε (A q)) :
    Dialogue Q A ε α → σ → List ((q : Q) × Except ε (A q))
  | done _, _ => []
  | ask q next, s =>
      match handler q s with
      | (.ok a, s') => ⟨q, .ok a⟩ :: (next (.ok a)).asked handler s'
      | (.err e, s') => ⟨q, .error e⟩ :: (next (.error e)).asked handler s'
      | (.panic, _) => []

/-- If all queries were answered, they are all on the record. -/
theorem asked_all {handler : Q → Act σ ε Unit} : ∀ {qs : List Q} {s s' : σ},
    (all qs : Dialogue Q (fun _ => Unit) ε Unit).run handler s = (.ok (), s') →
    (all qs : Dialogue Q (fun _ => Unit) ε Unit).asked handler s = qs.map (⟨·, .ok ()⟩) := by
  intro qs
  induction qs with
  | nil => exact fun _ => rfl
  | cons q qs ih =>
    intro s s' h
    rcases hq : handler q s with ⟨⟨⟩ | e | _, t⟩ <;> simp only [all, run, asked, hq] at h ⊢
    · rw [ih h, List.map_cons]
    · cases h
    · cases h

/-- If every answer takes the relation `R` on, from the record `h` so far to
the record with one more entry, then a whole dialogue does. -/
theorem run_induction (handler : (q : Q) → Act σ ε (A q))
    {R : List ((q : Q) × Except ε (A q)) → σ → Prop}
    (hok : ∀ h s q a s', R h s → handler q s = (.ok a, s') → R (h ++ [⟨q, .ok a⟩]) s')
    (herr : ∀ h s q e s', R h s → handler q s = (.err e, s') → R (h ++ [⟨q, .error e⟩]) s')
    (hpanic : ∀ q s, (handler q s).1 ≠ .panic) (d : Dialogue Q A ε α) :
    ∀ h s, R h s → R (h ++ d.asked handler s) (d.run handler s).2 ∧
      (d.run handler s).1 ≠ .panic := by
  induction d with
  | done r =>
    intro h s hR
    cases r with
    | ok a => exact ⟨by simpa [asked, run] using hR, by simp [run]⟩
    | error e => exact ⟨by simpa [asked, run] using hR, by simp [run]⟩
  | ask q next ih =>
    intro h s hR
    rcases hq : handler q s with ⟨a | e | _, s'⟩
    · have := ih (.ok a) _ s' (hok h s q a s' hR hq)
      simpa only [asked, run, hq, List.append_assoc, List.singleton_append] using this
    · have := ih (.error e) _ s' (herr h s q e s' hR hq)
      simpa only [asked, run, hq, List.append_assoc, List.singleton_append] using this
    · exact absurd (by rw [hq]) (hpanic q s)

end Dialogue

end Effects
