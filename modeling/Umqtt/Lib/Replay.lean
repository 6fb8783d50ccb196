/-
Umqtt/Lib/Replay.lean

The calls of a run, made once more without some of them.

A user chooses each call from the results so far (`Dialogue`), and the record of
a run has the calls with their results.  `script` makes a list of calls,
whatever they return.  If a call that is left out of the record, or replaced by
another one, has the effect of what stands for it, as far as the relation `R`
can tell, then a script of what remains of the record has these results, and
ends in a state that `R` relates to the end of the run (`replays`).
-/
import Umqtt.Lib.Dialogue

namespace Effects

/-- What a method that returned came to. -/
def Outcome.ofExcept {ε α : Type} : Except ε α → Outcome ε α
  | .ok a => .ok a
  | .error e => .err e

namespace Dialogue

variable {Q : Type} {A : Q → Type} {σ τ ε α : Type}

/-- Ask the queries in order, whatever the answers are. -/
def script : List Q → Dialogue Q A ε Unit
  | [] => done (.ok ())
  | q :: qs => ask q fun _ => script qs

/-- The entry `x` of a record: from the state `s` on, and it leaves `s'`. -/
def Answers (handler : (q : Q) → Act σ ε (A q)) (x : (q : Q) × Except ε (A q)) (s s' : σ) : Prop :=
  handler x.1 s = (.ofExcept x.2, s')

section Script

variable {handler : (q : Q) → Act σ ε (A q)} {x : (q : Q) × Except ε (A q)} {s s' : σ}

theorem asked_script_cons (h : Answers handler x s s') (qs : List Q) :
    (script (x.1 :: qs)).asked handler s = x :: (script qs).asked handler s' := by
  obtain ⟨q, a | e⟩ := x <;> simp only [Answers, Outcome.ofExcept] at h <;>
    simp only [script, asked, h]

theorem run_script_cons (h : Answers handler x s s') (qs : List Q) :
    (script (x.1 :: qs)).run handler s = (script qs).run handler s' := by
  obtain ⟨q, a | e⟩ := x <;> simp only [Answers, Outcome.ofExcept] at h <;>
    simp only [script, run, h]

end Script

/-! ### Runs with some calls left out -/

/-- From the state `t` on, the calls of `record` have the results of `record`, and
leave a state that `R` relates to `s`. -/
structure Replays (handler : (q : Q) → Act τ ε (A q)) (R : σ → τ → Prop)
    (record : List ((q : Q) × Except ε (A q))) (s : σ) (t : τ) : Prop where
  asked : (script (record.map Sigma.fst)).asked handler t = record
  related : R s ((script (record.map Sigma.fst)).run handler t).2

variable {handler : (q : Q) → Act σ ε (A q)} {handler' : (q : Q) → Act τ ε (A q)}
  {R : σ → τ → Prop} {edit : (q : Q) × Except ε (A q) → Option ((q : Q) × Except ε (A q))}

theorem Replays.cons {record : List ((q : Q) × Except ε (A q))} {x : (q : Q) × Except ε (A q)}
    {s : σ} {t t' : τ} (h : Replays handler' R record s t') (hx : Answers handler' x t t') :
    Replays handler' R (x :: record) s t where
  asked := by rw [List.map_cons, asked_script_cons hx, h.asked]
  related := by
    rw [List.map_cons, run_script_cons hx]
    exact h.related

/-- Each entry of the record is left out, and its call has had no effect, or what
stands for it has the effect of the call. -/
theorem replays (hstep : ∀ x s s' t, R s t → Answers handler x s s' →
      edit x = none ∧ R s' t ∨
        ∃ y t', edit x = some y ∧ Answers handler' y t t' ∧ R s' t')
    (d : Dialogue Q A ε α) : ∀ s t, R s t → (d.run handler s).1 ≠ .panic →
      Replays handler' R ((d.asked handler s).filterMap edit) (d.run handler s).2 t := by
  induction d with
  | done r => cases r <;> exact fun s t hst _ => ⟨rfl, hst⟩
  | ask q next ih =>
    have hnext : ∀ r s s' t, R s t → Answers handler ⟨q, r⟩ s s' →
        ((next r).run handler s').1 ≠ .panic →
        Replays handler' R ((⟨q, r⟩ :: (next r).asked handler s').filterMap edit)
          ((next r).run handler s').2 t := by
      intro r s s' t hst hx hrun
      rcases hstep ⟨q, r⟩ s s' t hst hx with ⟨hnone, hst'⟩ | ⟨y, t', hsome, hy, hst'⟩
      · rw [List.filterMap_cons_none hnone]
        exact ih r s' t hst' hrun
      · rw [List.filterMap_cons_some hsome]
        exact (ih r s' t' hst' hrun).cons hy
    intro s t hst hrun
    rcases hq : handler q s with ⟨a | e | _, s'⟩ <;> simp only [asked, run, hq] at hrun ⊢
    · exact hnext (.ok a) s s' t hst hq hrun
    · exact hnext (.error e) s s' t hst hq hrun
    · exact absurd rfl hrun

end Dialogue

end Effects
