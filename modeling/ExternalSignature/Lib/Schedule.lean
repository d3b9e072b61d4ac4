import ExternalSignature.Lib.Run
import Mathlib.Data.Set.Basic

/-!
# Schedules

Events that read and write the keys of a store. Two events are in conflict if one of them writes a
key that the other touches. Two schedules that order every two events in conflict in the same way
lead to the same store, and each event has the same outcome in both (`Footprint.run_eq`).
-/

namespace Lib

variable {κ α ε ω : Type}

/-- The events of a run, each with its outcome. -/
def outcomes {σ : Type} (step : σ → ε → σ) (outcome : σ → ε → ω) (s : σ) (es : List ε) :
    List (ε × ω) :=
  (trace step s es).map fun p => (p.2, outcome p.1 p.2)

@[simp] theorem outcomes_cons {σ : Type} (step : σ → ε → σ) (outcome : σ → ε → ω) (s : σ) (e : ε)
    (es : List ε) : outcomes step outcome s (e :: es) =
      (e, outcome s e) :: outcomes step outcome (step s e) es := rfl

/-- The keys that an event touches and those that it writes. It leaves the other keys alone, and
what it does depends on the keys that it touches only. -/
structure Footprint (step : (κ → α) → ε → κ → α) (outcome : (κ → α) → ε → ω) where
  touches : ε → Set κ
  writes : ε → Set κ
  writes_subset : ∀ e, writes e ⊆ touches e
  frame : ∀ s e, ∀ k ∉ writes e, step s e k = s k
  step_congr : ∀ s t e, (∀ k ∈ touches e, s k = t k) → ∀ k ∈ writes e, step s e k = step t e k
  outcome_congr : ∀ s t e, (∀ k ∈ touches e, s k = t k) → outcome s e = outcome t e

open Classical in
/-- The two schedules have the same events, and order those in the relation in the same way. -/
def SameOrder (r : ε → ε → Prop) (es fs : List ε) : Prop :=
  ∀ a b, a = b ∨ r a b → es.filter (fun e => e = a ∨ e = b) = fs.filter fun e => e = a ∨ e = b

namespace SameOrder

variable {r : ε → ε → Prop} {a b : ε} {es fs us vs : List ε}

/-- Two neighbours out of the relation change places. -/
theorem swap (hab : ¬ r a b) (hba : ¬ r b a) (es : List ε) :
    SameOrder r (a :: b :: es) (b :: a :: es) := by
  classical
  intro c d hcd
  by_cases ha : a = c ∨ a = d
  · by_cases hb : b = c ∨ b = d
    · obtain rfl : a = b := by grind
      rfl
    · simp only [List.filter_cons, decide_eq_true_eq, if_pos ha, if_neg hb]
  · simp only [List.filter_cons, decide_eq_true_eq, if_neg ha]

theorem nil_left (h : SameOrder r [] fs) : fs = [] := by
  cases fs with
  | nil => rfl
  | cons f fs =>
    have hf := h f f (.inl rfl)
    simp at hf

/-- The first event of a schedule is in the other one, behind events out of the relation. -/
theorem cons_left (hsymm : ∀ x y, r x y → r y x) (h : SameOrder r (a :: es) fs) : ∃ us vs,
    fs = us ++ a :: vs ∧ (∀ b ∈ us, ¬ r a b) ∧ SameOrder r es (us ++ vs) := by
  classical
  have hmem : a ∈ fs := by
    have ha := h a a (.inl rfl)
    rw [List.filter_cons_of_pos (by simp)] at ha
    exact (List.mem_filter.mp (ha ▸ List.mem_cons_self)).1
  obtain ⟨us, vs, rfl, hus⟩ := List.eq_append_cons_of_mem hmem
  have hrel : ∀ b ∈ us, ¬ r a b := by
    intro b hb hr
    have hab := h a b (.inr hr)
    rw [List.filter_cons_of_pos (by simp), List.filter_append] at hab
    -- of the two, the other schedule has `b` first
    cases hfilter : us.filter fun e => e = a ∨ e = b with
    | nil => simpa using List.filter_eq_nil_iff.mp hfilter b hb
    | cons c cs =>
      rw [hfilter] at hab
      obtain rfl : a = c := (List.cons.inj hab).1
      exact hus (List.mem_filter.mp (hfilter ▸ List.mem_cons_self)).1
  refine ⟨us, vs, rfl, hrel, fun c d hcd => ?_⟩
  have hfilter := h c d hcd
  rw [List.filter_append] at hfilter ⊢
  by_cases ha : a = c ∨ a = d
  · have hnil : us.filter (fun e => e = c ∨ e = d) = [] := by
      refine List.filter_eq_nil_iff.mpr fun b hb => ?_
      have hne : b ≠ a := fun h => hus (h ▸ hb)
      have hba : ¬ r b a := fun h => hrel b hb (hsymm b a h)
      have hab := hrel b hb
      grind
    rw [hnil, List.filter_cons_of_pos (by simpa using ha), List.nil_append,
      List.filter_cons_of_pos (by simpa using ha)] at hfilter
    rw [hnil, List.nil_append]
    exact (List.cons.inj hfilter).2
  · rwa [List.filter_cons_of_neg (by simpa using ha), List.filter_cons_of_neg (by simpa using ha)]
      at hfilter

end SameOrder

namespace Footprint

variable {step : (κ → α) → ε → κ → α} {outcome : (κ → α) → ε → ω} (f : Footprint step outcome)

/-- One of the events writes a key that the other touches. -/
def Conflict (a b : ε) : Prop :=
  ∃ k, k ∈ f.writes a ∧ k ∈ f.touches b ∨ k ∈ f.touches a ∧ k ∈ f.writes b

theorem conflict_symm (a b : ε) (h : f.Conflict a b) : f.Conflict b a := by
  obtain ⟨k, h⟩ := h
  exact ⟨k, h.symm.imp And.symm And.symm⟩

variable {f} {a b : ε}

/-- An event finds what it touches as it was before one without conflict. -/
theorem untouched (h : ¬ f.Conflict a b) (s : κ → α) : ∀ k ∈ f.touches b, step s a k = s k :=
  fun k hk => f.frame s a k fun hw => h ⟨k, .inl ⟨hw, hk⟩⟩

theorem outcome_step (h : ¬ f.Conflict a b) (s : κ → α) : outcome (step s a) b = outcome s b :=
  f.outcome_congr _ _ b (untouched h s)

theorem step_comm (h : ¬ f.Conflict a b) (s : κ → α) :
    step (step s a) b = step (step s b) a := by
  have hsymm : ¬ f.Conflict b a := fun hc => h (f.conflict_symm _ _ hc)
  funext k
  by_cases ha : k ∈ f.writes a
  · have hb : k ∉ f.writes b := fun hb => h ⟨k, .inl ⟨ha, f.writes_subset b hb⟩⟩
    rw [f.frame _ b k hb, f.step_congr _ s a (untouched hsymm s) k ha]
  · by_cases hb : k ∈ f.writes b
    · rw [f.frame _ a k ha, f.step_congr _ s b (untouched h s) k hb]
    · rw [f.frame _ b k hb, f.frame _ a k ha, f.frame _ a k ha, f.frame _ b k hb]

/-- An event that is not in conflict with those before it can come first. -/
theorem run_middle {us : List ε} (h : ∀ b ∈ us, ¬ f.Conflict a b) (vs : List ε) (s : κ → α) :
    run step s (us ++ a :: vs) = run step (step s a) (us ++ vs) ∧
      (outcomes step outcome s (us ++ a :: vs)).Perm
        ((a, outcome s a) :: outcomes step outcome (step s a) (us ++ vs)) := by
  induction us generalizing s with
  | nil => exact ⟨rfl, .refl _⟩
  | cons b us ih =>
    have hab := h b List.mem_cons_self
    have hba : ¬ f.Conflict b a := fun hc => hab (f.conflict_symm _ _ hc)
    obtain ⟨hrun, hperm⟩ := ih (fun c hc => h c (List.mem_cons_of_mem b hc)) (step s b)
    rw [step_comm hba s, outcome_step hba s] at hperm
    rw [step_comm hba s] at hrun
    refine ⟨hrun, ?_⟩
    simp only [List.cons_append, outcomes_cons, outcome_step hab s]
    exact (hperm.cons _).trans (.swap _ _ _)

/-- Schedules with the same conflicts in the same order are the same to the store, and to every
event. -/
theorem run_eq {es fs : List ε} (h : SameOrder f.Conflict es fs) (s : κ → α) :
    run step s es = run step s fs ∧
      (outcomes step outcome s es).Perm (outcomes step outcome s fs) := by
  induction es generalizing fs s with
  | nil =>
    obtain rfl := h.nil_left
    exact ⟨rfl, .refl _⟩
  | cons a es ih =>
    obtain ⟨us, vs, rfl, hus, hes⟩ := h.cons_left f.conflict_symm
    obtain ⟨hrun, hperm⟩ := run_middle hus vs s
    obtain ⟨hrun', hperm'⟩ := ih hes (step s a)
    exact ⟨hrun'.trans hrun.symm, (hperm'.cons _).trans hperm.symm⟩

end Footprint

end Lib
