import ExternalSignature.Lib.Run

/-!
# Replay

A system that a smaller machine abstracts. The machine knows only the messages that the system
accepts, and refuses the ones it has no step for. `Simulates` is what one step of the system has to
satisfy: an event that is no message leaves the view of the state alone, and one that is a message
moves the view as the machine moves. The view of a run is then the machine's state after the
messages of the run, none of which it refuses (`Simulates.replay`), and a field of it is what the
last message that writes the field has written (`replay_field`).
-/

namespace Lib

variable {σ ε α μ β : Type}

/-- The state that the machine reaches, unless it refuses a message. -/
def replay (receive : α → μ → Option α) (a : α) (ms : List μ) : Option α := ms.foldlM receive a

/-- The messages that the events of a run are. -/
def messages (step : σ → ε → σ) (observe : σ → ε → Option μ) (s : σ) (es : List ε) : List μ :=
  (trace step s es).filterMap fun p => observe p.1 p.2

section Machine

variable {receive : α → μ → Option α} {a b : α}

theorem replay_cons {m : μ} {ms : List μ} :
    replay receive a (m :: ms) = some b ↔
      ∃ c, receive a m = some c ∧ replay receive c ms = some b := by
  rw [replay, List.foldlM_cons]
  exact Option.bind_eq_some_iff

/-- A field has the value that the last message to write it has written. -/
theorem replay_field {field : α → β} {write : μ → Option β} {ms : List μ}
    (h : replay receive a ms = some b)
    (hwrite : ∀ a m b, receive a m = some b → field b = (write m).getD (field a)) :
    field b = ((ms.filterMap write).getLast?).getD (field a) := by
  induction ms generalizing a with
  | nil =>
    obtain rfl := Option.some.inj h
    rfl
  | cons m ms ih =>
    obtain ⟨c, hc, h⟩ := replay_cons.mp h
    rw [ih h, hwrite _ _ _ hc]
    cases hm : write m with
    | none => rw [List.filterMap_cons_none hm, Option.getD_none]
    | some v => rw [List.filterMap_cons_some hm, List.getLast?_cons, Option.getD_some,
        Option.getD_some]

theorem replay_append {ms ns : List μ} :
    replay receive a (ms ++ ns) = some b ↔
      ∃ c, replay receive a ms = some c ∧ replay receive c ns = some b := by
  rw [replay, List.foldlM_append]
  exact Option.bind_eq_some_iff

/-- What a message establishes, and every later one keeps, holds of all messages at the end. -/
theorem replay_forall {p : α → μ → Prop} {ms : List μ} (h : replay receive a ms = some b)
    (hnew : ∀ a m b, receive a m = some b → p b m)
    (hkeep : ∀ a m b n, receive a m = some b → p a n → p b n) : ∀ m ∈ ms, p b m := by
  induction ms using List.reverseRecOn generalizing b with
  | nil => exact List.forall_mem_nil _
  | append_singleton ms m ih =>
    obtain ⟨c, hc, hlast⟩ := replay_append.mp h
    obtain ⟨d, hm, hd⟩ := replay_cons.mp hlast
    obtain rfl := Option.some.inj hd
    intro n hn
    rcases List.mem_append.mp hn with hn | hn
    · exact hkeep _ _ _ n hm (ih hc n hn)
    · obtain rfl := List.mem_singleton.mp hn
      exact hnew _ _ _ hm

end Machine

section Messages

variable {step : σ → ε → σ} {observe : σ → ε → Option μ}

@[simp] theorem messages_nil (s : σ) : messages step observe s [] = [] := rfl

theorem messages_cons (s : σ) (e : ε) (es : List ε) : messages step observe s (e :: es) =
    (observe s e).toList ++ messages step observe (step s e) es := by
  rw [messages, trace, List.filterMap_cons]
  cases observe s e <;> rfl

theorem messages_append (s : σ) (es fs : List ε) :
    messages step observe s (es ++ fs) =
      messages step observe s es ++ messages step observe (run step s es) fs := by
  rw [messages, trace_append, List.filterMap_append]
  rfl

/-- A message is an event of the run. -/
theorem mem_messages {s : σ} {es : List ε} {m : μ} (h : m ∈ messages step observe s es) :
    ∃ before e after, es = before ++ e :: after ∧ observe (run step s before) e = some m := by
  obtain ⟨⟨t, e⟩, ht, hm⟩ := List.mem_filterMap.mp h
  obtain ⟨before, after, hes, rfl⟩ := mem_trace ht
  exact ⟨before, e, after, hes, hm⟩

/-- The last message that writes something: the ones after it write nothing. -/
theorem last_write {write : μ → Option β} {v : β} {s : σ} {es : List ε}
    (h : ((messages step observe s es).filterMap write).getLast? = some v) :
    ∃ before e after m, es = before ++ e :: after ∧ observe (run step s before) e = some m ∧
      write m = some v ∧
      ∀ n ∈ messages step observe (step (run step s before) e) after, write n = none := by
  induction es using List.reverseRecOn with
  | nil => cases h
  | append_singleton es e ih =>
    rw [messages_append, List.filterMap_append, List.getLast?_append] at h
    rw [messages_cons, messages_nil, List.append_nil] at h
    cases he : (observe (run step s es) e).bind write with
    | some w =>
      obtain ⟨m, hm, hw⟩ := Option.bind_eq_some_iff.mp he
      rw [hm, Option.toList_some, List.filterMap_cons_some hw, List.filterMap_nil,
        List.getLast?_singleton, Option.some_or] at h
      exact ⟨es, e, [], m, rfl, hm, hw.trans h, List.forall_mem_nil _⟩
    | none =>
      have hone : ∀ n ∈ (observe (run step s es) e).toList, write n = none := by
        intro n hn
        exact Option.bind_eq_none_iff.mp he n (Option.mem_toList.mp hn)
      rw [List.filterMap_eq_nil_iff.mpr hone, List.getLast?_nil, Option.none_or] at h
      obtain ⟨before, f, after, m, rfl, hm, hw, hrest⟩ := ih h
      refine ⟨before, f, after ++ [e], m, List.append_assoc _ _ _, hm, hw, fun n hn => ?_⟩
      rw [messages_append, List.mem_append, messages_cons, messages_nil, List.append_nil] at hn
      rw [run_append, run_cons] at hone
      exact hn.elim (hrest n) (hone n)

end Messages

/-! ## Refinement -/

/-- Each step of the system is a step of the machine, or none. -/
structure Simulates (step : σ → ε → σ) (observe : σ → ε → Option μ) (view : σ → α)
    (receive : α → μ → Option α) : Prop where
  silent : ∀ s e, observe s e = none → view (step s e) = view s
  received : ∀ s e m, observe s e = some m → receive (view s) m = some (view (step s e))

variable {step : σ → ε → σ} {observe : σ → ε → Option μ} {view : σ → α}
  {receive : α → μ → Option α}

theorem Simulates.replay (h : Simulates step observe view receive) (s : σ) (es : List ε) :
    replay receive (view s) (messages step observe s es) = some (view (run step s es)) := by
  induction es generalizing s with
  | nil => rfl
  | cons e es ih =>
    rw [run_cons, messages_cons]
    cases he : observe s e with
    | none =>
      rw [← h.silent s e he]
      exact ih _
    | some m => exact replay_cons.mpr ⟨_, h.received s e m he, ih _⟩

end Lib
