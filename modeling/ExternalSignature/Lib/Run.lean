import Mathlib.Data.List.Induction

/-!
# Runs of a transition function

`run step s es` is the state a list of events leads to. An invariant is proved on one step and
holds after every run (`run_invariant`); a relation that one step respects and that composes
holds across every run (`run_rel`). `trace step s es` lists the events with the state each one
meets, for properties that speak of the past (`run_history`).
-/

namespace Lib

variable {σ ε : Type} (step : σ → ε → σ)

def run (s : σ) (es : List ε) : σ := es.foldl step s

/-- The events of a run, each with the state it is applied to. -/
def trace (s : σ) : List ε → List (σ × ε)
  | [] => []
  | e :: es => (s, e) :: trace (step s e) es

variable {step}

@[simp] theorem run_nil (s : σ) : run step s [] = s := rfl

@[simp] theorem run_cons (s : σ) (e : ε) (es : List ε) :
    run step s (e :: es) = run step (step s e) es := rfl

theorem run_append (s : σ) (es fs : List ε) :
    run step s (es ++ fs) = run step (run step s es) fs := List.foldl_append

theorem run_snoc (s : σ) (es : List ε) (e : ε) :
    run step s (es ++ [e]) = step (run step s es) e := run_append s es [e]

theorem trace_append (s : σ) (es fs : List ε) :
    trace step s (es ++ fs) = trace step s es ++ trace step (run step s es) fs := by
  induction es generalizing s with
  | nil => rfl
  | cons e es ih => simp [trace, ih]

/-- An event of a run meets the state that the events before it lead to. -/
theorem mem_trace {s t : σ} {e : ε} {es : List ε} (h : (t, e) ∈ trace step s es) :
    ∃ before after, es = before ++ e :: after ∧ t = run step s before := by
  induction es generalizing s with
  | nil => cases h
  | cons f fs ih =>
    rcases List.mem_cons.mp h with h | h
    · cases h
      exact ⟨[], fs, rfl, rfl⟩
    · obtain ⟨before, after, rfl, rfl⟩ := ih h
      exact ⟨f :: before, after, rfl, rfl⟩

/-- A relation between an event of a run and the ones after it. -/
theorem pairwise_trace {r : σ × ε → σ × ε → Prop} {s : σ} {es : List ε}
    (h : ∀ before e after q, es = before ++ e :: after →
      q ∈ trace step (step (run step s before) e) after → r (run step s before, e) q) :
    (trace step s es).Pairwise r := by
  induction es generalizing s with
  | nil => exact .nil
  | cons f fs ih =>
    refine .cons (fun q hq => h [] f fs q rfl hq) (ih fun before e after q he hq => ?_)
    exact h (f :: before) e after q (by rw [he, List.cons_append]) hq

theorem run_invariant {p : σ → Prop} (hstep : ∀ s e, p s → p (step s e)) {s : σ} (hs : p s)
    (es : List ε) : p (run step s es) := by
  induction es generalizing s with
  | nil => exact hs
  | cons e es ih => exact ih (hstep s e hs)

/-- A relation kept by the steps out of the states of an invariant is kept by runs. -/
theorem run_rel {p : σ → Prop} {r : σ → σ → Prop} (hrefl : ∀ s, r s s)
    (htrans : ∀ s t u, r s t → r t u → r s u) (hinv : ∀ s e, p s → p (step s e))
    (hstep : ∀ s e, p s → r s (step s e)) {s : σ} (hs : p s) (es : List ε) :
    r s (run step s es) := by
  induction es generalizing s with
  | nil => exact hrefl s
  | cons e es ih => exact htrans _ _ _ (hstep s e hs) (ih (hinv s e hs))

/-- A property of the events so far and the state they lead to, from one more event. -/
theorem run_history {p : List ε → σ → Prop} {s : σ} (hnil : p [] s)
    (hsnoc : ∀ es e, p es (run step s es) → p (es ++ [e]) (step (run step s es) e))
    (es : List ε) : p es (run step s es) := by
  induction es using List.reverseRecOn with
  | nil => exact hnil
  | append_singleton es e ih => rw [run_snoc]; exact hsnoc es e ih

end Lib
