import Mathlib.Data.List.Induction

/-!
# First occurrences

`l.eraseDups` keeps the first occurrence of each entry of `l`. Seen through a function `f`, the list
of first occurrences agrees with `l` at every index that it has exactly when every new entry agrees
with the one whose place it takes (`InPlace`, `map_eraseDups_prefix_iff`); where `f` tells the entries
apart, when no entry that is new comes after a repetition (`inPlace_iff_of_injOn`).
-/

namespace Lib

variable {α β : Type}

section

variable [BEq α] [LawfulBEq α]

theorem eraseDups_concat (l : List α) (a : α) :
    (l ++ [a]).eraseDups = if a ∈ l then l.eraseDups else l.eraseDups ++ [a] := by
  rw [List.eraseDups_append]
  split
  · rename_i h
    simp [List.removeAll, h]
  · rename_i h
    simp [List.removeAll, h, List.eraseDups_cons]

/-- Where `f` tells the entries apart, the first occurrences are those of the images. -/
theorem eraseDups_map [BEq β] [LawfulBEq β] {f : α → β} {l : List α}
    (h : ∀ a ∈ l, ∀ b ∈ l, f a = f b → a = b) : (l.map f).eraseDups = l.eraseDups.map f := by
  induction l using List.reverseRecOn with
  | nil => rfl
  | append_singleton l a ih =>
    have hl : ∀ b ∈ l, b ∈ l ++ [a] := fun b hb => List.mem_append_left _ hb
    have hmem : f a ∈ l.map f ↔ a ∈ l := by
      refine ⟨fun hf => ?_, List.mem_map_of_mem⟩
      obtain ⟨b, hb, heq⟩ := List.mem_map.mp hf
      exact h b (hl b hb) a (by simp) heq ▸ hb
    rw [List.map_append, List.map_singleton, eraseDups_concat, eraseDups_concat,
      ih fun b hb c hc => h b (hl b hb) c (hl c hc)]
    by_cases ha : a ∈ l
    · rw [if_pos (hmem.mpr ha), if_pos ha]
    · rw [if_neg (mt hmem.mp ha), if_neg ha, List.map_append, List.map_singleton]

end

variable [DecidableEq α]

theorem length_eraseDups_le (l : List α) : l.eraseDups.length ≤ l.length := by
  induction l using List.reverseRecOn with
  | nil => exact Nat.le_refl _
  | append_singleton l a ih =>
    rw [eraseDups_concat]
    split <;> simp <;> omega

theorem length_eraseDups_eq {l : List α} : l.eraseDups.length = l.length ↔ l.Nodup := by
  induction l using List.reverseRecOn with
  | nil => simp
  | append_singleton l a ih =>
    have hle := length_eraseDups_le l
    rw [eraseDups_concat]
    split
    · rename_i ha
      exact iff_of_false (by simp; omega) fun h => (List.nodup_append.mp h).2.2 a ha a (by simp) rfl
    · rename_i ha
      have hne : ∀ b ∈ l, b ≠ a := fun b hb he => ha (he ▸ hb)
      simpa [List.nodup_append, ih] using fun _ => hne

/-- Every first occurrence agrees under `f` with the entry at its index among the first
occurrences. -/
def InPlace (f : α → β) (l : List α) : Prop :=
  ∀ before a, before ++ [a] <+: l → a ∉ before →
    (before ++ [a])[before.eraseDups.length]?.map f = some (f a)

theorem inPlace_concat {f : α → β} {l : List α} {a : α} :
    InPlace f (l ++ [a]) ↔ InPlace f l ∧
      (a ∉ l → (l ++ [a])[l.eraseDups.length]?.map f = some (f a)) := by
  constructor
  · intro h
    exact ⟨fun before b hp => h before b (hp.trans (List.prefix_append _ _)),
      h l a (List.prefix_refl _)⟩
  · rintro ⟨h, ha⟩ before b hp hb
    rcases List.prefix_concat_iff.mp hp with heq | hp
    · obtain ⟨rfl, ⟨⟩⟩ := List.append_inj' heq rfl
      exact ha hb
    · exact h before b hp hb

theorem map_eraseDups_prefix_iff {f : α → β} {l : List α} :
    l.eraseDups.map f <+: l.map f ↔ InPlace f l := by
  induction l using List.reverseRecOn with
  | nil =>
    refine iff_of_true (List.prefix_refl _) fun before a hp => ?_
    exact absurd (List.prefix_nil.mp hp) (by simp)
  | append_singleton l a ih =>
    have hle := length_eraseDups_le l
    -- the first occurrences in `l` are no more than the entries of `l`
    have hl : l.eraseDups.map f <+: (l ++ [a]).map f ↔ l.eraseDups.map f <+: l.map f := by
      rw [List.map_append]
      refine ⟨fun h => ?_, fun h => h.trans (List.prefix_append _ _)⟩
      exact List.prefix_of_prefix_length_le h (List.prefix_append _ _) (by simpa using hle)
    rw [inPlace_concat, ← ih, ← hl, eraseDups_concat]
    split
    · rename_i ha
      exact ⟨fun h => ⟨h, fun hn => absurd ha hn⟩, fun h => h.1⟩
    · rename_i ha
      rw [List.map_append, List.map_singleton, ← List.getElem?_map]
      generalize hm : (l ++ [a]).map f = mapped
      have hlen : (l.eraseDups.map f).length = l.eraseDups.length := List.length_map _
      constructor
      · rintro ⟨rest, h⟩
        refine ⟨⟨[f a] ++ rest, by rw [← List.append_assoc]; exact h⟩, fun _ => ?_⟩
        rw [← h, List.append_assoc, List.getElem?_append_right (Nat.le_of_eq hlen), hlen]
        simp
      · rintro ⟨⟨rest, h⟩, hget⟩
        have hget := hget ha
        rw [← h, List.getElem?_append_right (Nat.le_of_eq hlen), hlen, Nat.sub_self] at hget
        obtain ⟨rest, rfl⟩ : ∃ tail, rest = f a :: tail := by
          cases rest with
          | nil => cases hget
          | cons b tail => exact ⟨tail, by rw [Option.some.inj hget]⟩
        exact ⟨rest, by rw [← h, List.append_assoc]; rfl⟩

/-- Where `f` tells the entries apart, a new entry is in its place if no repetition comes before. -/
theorem inPlace_iff_of_injOn {f : α → β} {l : List α}
    (h : ∀ a ∈ l, ∀ b ∈ l, f a = f b → a = b) :
    InPlace f l ↔ ∀ before a, before ++ [a] <+: l → a ∉ before → before.Nodup := by
  refine forall₂_congr fun before a => forall₂_congr fun hp ha => ?_
  have hmem : ∀ b ∈ before ++ [a], b ∈ l := fun b hb => hp.subset hb
  rw [← length_eraseDups_eq]
  rcases Nat.eq_or_lt_of_le (length_eraseDups_le before) with heq | hlt
  · rw [heq]
    simp
  · rw [List.getElem?_append_left hlt, List.getElem?_eq_getElem hlt, Option.map_some,
      Option.some.injEq]
    refine iff_of_false (fun hf => ha ?_) (Nat.ne_of_lt hlt)
    have hin := List.getElem_mem hlt
    exact h _ (hmem _ (List.mem_append_left _ hin)) a (hmem a (by simp)) hf ▸ hin

end Lib
