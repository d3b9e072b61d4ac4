import Mathlib.Data.List.Forall2

/-!
# Successful results of fallible code

`Except` is Rust's `Result`. The lemmas turn `c = .ok b` for a command `c` in `do` notation into
what each of its steps did, so that a proof about a successful run never unfolds the monad.
-/

namespace Lib

variable {ε ε' α β : Type}

@[simp] theorem bind_eq_ok {x : Except ε α} {f : α → Except ε β} {b : β} :
    (x >>= f) = .ok b ↔ ∃ a, x = .ok a ∧ f a = .ok b := by
  cases x <;> simp [bind, Except.bind]

theorem ok_bind (a : α) (f : α → Except ε β) : (.ok a >>= f) = f a := rfl

theorem error_bind (e : ε) (f : α → Except ε β) : (.error e >>= f) = .error e := rfl

@[simp] theorem pure_eq_ok {a b : α} : (pure a : Except ε α) = .ok b ↔ a = b := by
  simp [pure, Except.pure]

theorem throw_ne_ok {e : ε} {a : α} : (throw e : Except ε α) ≠ .ok a := by
  simp [throw, throwThe, MonadExceptOf.throw]

/-- `ok_or`. -/
def okOr (e : ε) : Option α → Except ε α
  | some a => .ok a
  | none => .error e

@[simp] theorem okOr_eq_ok {e : ε} {o : Option α} {a : α} : okOr e o = .ok a ↔ o = some a := by
  cases o <;> simp [okOr]

/-- `is_ok_and`. -/
def isOkAnd (p : α → Bool) : Except ε α → Bool
  | .ok a => p a
  | .error _ => false

theorem isOkAnd_iff {p : α → Bool} {x : Except ε α} :
    isOkAnd p x ↔ ∃ a, x = .ok a ∧ p a := by
  cases x <;> simp [isOkAnd]

/-- `map_err` with a constant error. -/
def mapErr (e : ε') : Except ε α → Except ε' α
  | .ok a => .ok a
  | .error _ => .error e

@[simp] theorem mapErr_eq_ok {e : ε'} {x : Except ε α} {a : α} :
    mapErr e x = .ok a ↔ x = .ok a := by
  cases x <;> simp [mapErr]

@[simp] theorem mapError_eq_ok {f : ε → ε'} {x : Except ε α} {a : α} :
    x.mapError f = .ok a ↔ x = .ok a := by
  cases x <;> simp [Except.mapError]

/-- An early return with `e` unless `c`. -/
def ensure (c : Prop) [Decidable c] (e : ε) : Except ε Unit := if c then .ok () else .error e

@[simp] theorem ensure_eq_ok {c : Prop} [Decidable c] {e : ε} {u : Unit} :
    ensure c e = .ok u ↔ c := by
  unfold ensure; split <;> simp_all

theorem mapM_eq_ok {f : α → Except ε β} {l : List α} {bs : List β} :
    l.mapM f = .ok bs ↔ List.Forall₂ (fun a b => f a = .ok b) l bs := by
  induction l generalizing bs with
  | nil => cases bs <;> simp [pure, Except.pure]
  | cons a l ih =>
    simp only [List.mapM_cons, bind_eq_ok, pure_eq_ok, List.forall₂_cons_left_iff, ih]
    constructor
    · rintro ⟨b, hb, rest, hrest, rfl⟩
      exact ⟨b, rest, hb, hrest, rfl⟩
    · rintro ⟨b, rest, hb, hrest, rfl⟩
      exact ⟨b, hb, rest, hrest, rfl⟩

theorem mapM_total {f : α → Except ε β} {l : List α} (h : ∀ a ∈ l, ∃ b, f a = .ok b) :
    ∃ bs, l.mapM f = .ok bs := by
  induction l with
  | nil => exact ⟨[], rfl⟩
  | cons a l ih =>
    obtain ⟨⟨b, hb⟩, h⟩ := List.forall_mem_cons.mp h
    obtain ⟨bs, hbs⟩ := ih h
    exact ⟨b :: bs, mapM_eq_ok.mpr (.cons hb (mapM_eq_ok.mp hbs))⟩

theorem ensure_pos {c : Prop} [Decidable c] {e : ε} (h : c) : ensure c e = .ok () := if_pos h

theorem ensure_neg {c : Prop} [Decidable c] {e : ε} (h : ¬c) : ensure c e = .error e := if_neg h

theorem toOption_eq_some {x : Except ε α} {a : α} : x.toOption = some a ↔ x = .ok a := by
  cases x <;> simp [Except.toOption]

theorem exists_of_isOk {x : Except ε α} (h : x.isOk = true) : ∃ a, x = .ok a := by
  cases x with
  | error => cases h
  | ok a => exact ⟨a, rfl⟩

/-- Both end with the same error, or in related results. -/
inductive SameEnd {α β : Type} (r : α → β → Prop) : Except ε α → Except ε β → Prop
  | error (e : ε) : SameEnd r (.error e) (.error e)
  | ok {a : α} {b : β} (h : r a b) : SameEnd r (.ok a) (.ok b)

namespace SameEnd

variable {γ δ : Type} {r : α → β → Prop} {q : γ → δ → Prop} {x : Except ε α} {y : Except ε β}

theorem bind {f : α → Except ε γ} {g : β → Except ε δ} (h : SameEnd r x y)
    (hfg : ∀ a b, r a b → SameEnd q (f a) (g b)) : SameEnd q (x >>= f) (y >>= g) := by
  cases h with
  | error e => exact .error e
  | ok h => exact hfg _ _ h

theorem map_eq {f : α → γ} {g : β → γ} (h : SameEnd r x y) (hfg : ∀ a b, r a b → f a = g b) :
    x.map f = y.map g := by
  cases h with
  | error e => rfl
  | ok h => exact congrArg Except.ok (hfg _ _ h)

end SameEnd

theorem exists_unit {p : Unit → Prop} : (∃ u, p u) ↔ p () := ⟨fun ⟨(), h⟩ => h, fun h => ⟨(), h⟩⟩

end Lib
