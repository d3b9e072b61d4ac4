import ExternalSignature.Allocator

/-!
# Heap safety

The word at the start of the heap represents an arena over the rest of it, and `alloc` places a
block in that arena (`alloc_refines`). No run of allocations, deallocations and writes into the
blocks given out leaves the arena (`Client.sound_run`), so every block is aligned, inside the heap
and apart from the position word and from the other blocks (`alloc_safe`).
-/

namespace ExternalSignature

open Lib BumpAllocator

/-! ## Refinement -/

/-- The heap's position word stands at the cursor of the arena above it. -/
structure Represents (heap : Heap) (a : Arena) : Prop where
  bottom : a.bottom = bottomAddress.toNat
  top : a.top = topAddress.toNat
  cursor : (currentPos heap).toNat = a.cursor

/-- The arena of a zeroed heap. -/
def wholeHeap : Arena where
  bottom := bottomAddress.toNat
  top := topAddress.toNat
  cursor := bottomAddress.toNat
  bottom_le := Nat.le_refl _
  cursor_le := by decide

theorem represents_zeroed : Represents .zeroed wholeHeap := ⟨rfl, rfl, rfl⟩

variable {heap : Heap} {a : Arena} {layout : Layout}

/-- The position is never so high that the alignment step wraps. -/
theorem Represents.no_wrap (hr : Represents heap a) :
    (currentPos heap).toNat + layout.align.toNat < UInt64.size := by
  have hc := a.cursor_le
  have ha := layout.align_le
  have ht : topAddress.toNat = 0x300040000 := rfl
  rw [hr.cursor, UInt64.size]
  rw [hr.top, ht] at hc
  omega

/-- What the allocator stores is read back as the position, unless it is zero. -/
theorem currentPos_store {pos : UInt64} (h : pos ≠ 0) :
    currentPos (heap.store posPtr pos) = pos := by
  unfold currentPos
  rw [Heap.load_store]
  exact if_neg h

/-- `alloc` places a block in the arena, or leaves the heap alone when the arena has no room. -/
theorem alloc_refines (hr : Represents heap a) (layout : Layout) :
    match a.place layout.align.toNat layout.size.toNat layout.align_pos with
    | some (s, b) => (alloc layout heap).1 ≠ nullMut ∧ Client.block layout (alloc layout heap).1 = s ∧
        Represents (alloc layout heap).2 b
    | none => alloc layout heap = (nullMut, heap) := by
  obtain ⟨k, hk⟩ := layout.isPowerOfTwo
  set pos := (currentPos heap + layout.align - 1) &&& ~~~(layout.align - 1) with hpos
  have hnat : pos.toNat = alignUp layout.align.toNat a.cursor := by
    rw [hpos, toNat_maskUp hk hr.no_wrap, hr.cursor]
  have hnext := toNat_saturatingAdd pos layout.size
  have hb := a.bottom_le
  have hle : a.cursor ≤ alignUp layout.align.toNat a.cursor := le_alignUp layout.align_pos
  have hbot : bottomAddress.toNat = 0x300000008 := rfl
  have htop : topAddress.toNat = 0x300040000 := rfl
  rw [hr.bottom, hbot] at hb
  -- the sum saturates above the top, so comparing it with the top is exact
  have hiff : topAddress < saturatingAdd pos layout.size ↔
      ¬ (a.next layout.align.toNat layout.size.toNat).stop ≤ a.top := by
    rw [UInt64.lt_iff_toNat_lt, hnext, hr.top, htop, UInt64.size, hnat]
    simp only [Arena.next, Span.stop]
    omega
  have halloc : alloc layout heap = if topAddress < saturatingAdd pos layout.size then
      (nullMut, heap) else (pos, heap.store posPtr (saturatingAdd pos layout.size)) := rfl
  unfold Arena.place
  by_cases h : (a.next layout.align.toNat layout.size.toNat).stop ≤ a.top
  · have hstop : (saturatingAdd pos layout.size).toNat =
        (a.next layout.align.toNat layout.size.toNat).stop := by
      rw [hr.top, htop] at h
      rw [hnext, hnat, UInt64.size]
      simp only [Arena.next, Span.stop] at h ⊢
      omega
    rw [dif_pos h, halloc, if_neg (by rw [hiff]; exact not_not_intro h)]
    refine ⟨?_, ?_, hr.bottom, hr.top, ?_⟩
    · intro hz
      rw [show pos = 0 from hz] at hnat
      have : (0 : UInt64).toNat = 0 := rfl
      omega
    · show Span.mk pos.toNat _ = Span.mk _ _
      rw [hnat]
    · rw [currentPos_store, hstop]
      intro hz
      rw [hz] at hstop
      have : (0 : UInt64).toNat = 0 := rfl
      simp only [Arena.next, Span.stop] at hstop
      omega
  · rw [dif_neg h, halloc, if_pos (hiff.mpr h)]

/-- A write behind the position word moves nothing. -/
theorem Represents.set {address : Nat} {value : UInt8} (hr : Represents heap a)
    (h : bottomAddress.toNat ≤ address) : Represents (heap.set address value) a := by
  refine ⟨hr.bottom, hr.top, ?_⟩
  rw [← hr.cursor]
  unfold currentPos
  rw [Heap.load_set (.inr h)]

/-! ## Runs -/

namespace Client

/-- The heap represents an arena that holds the client's blocks and is full up to the last one. -/
structure SoundIn (c : Client) (a : Arena) : Prop where
  represents : Represents c.heap a
  holds : a.Holds c.blocks
  cursor : a.cursor = (c.blocks.head?.map Span.stop).getD bottomAddress.toNat

def Sound (c : Client) : Prop := ∃ a, c.SoundIn a

theorem sound_start : start.Sound := ⟨wholeHeap, represents_zeroed, .nil _, rfl⟩

variable {c : Client}

/-- Every block lies below the cursor, and the last one ends there. -/
theorem SoundIn.cursor_le_iff {n : Nat} (h : c.SoundIn a) :
    a.cursor ≤ n ↔ bottomAddress.toNat ≤ n ∧ ∀ b ∈ c.blocks, b.stop ≤ n := by
  constructor
  · intro hn
    have hb := h.represents.bottom ▸ a.bottom_le
    exact ⟨Nat.le_trans hb hn, fun b hmem => Nat.le_trans (h.holds.within b hmem).2 hn⟩
  · rintro ⟨hn, hall⟩
    rw [h.cursor]
    cases hc : c.blocks with
    | nil => exact hn
    | cons b bs => exact hall b (by rw [hc]; exact .head bs)

/-- One request, as the arena answers it. -/
theorem SoundIn.alloc (h : c.SoundIn a) (layout : Layout) :
    match a.place layout.align.toNat layout.size.toNat layout.align_pos with
    | some (s, b) => block layout (alloc layout c.heap).1 = s ∧
        c.step (.alloc layout) = { heap := (alloc layout c.heap).2, blocks := s :: c.blocks } ∧
        (c.step (.alloc layout)).SoundIn b
    | none => c.step (.alloc layout) = c := by
  have href := alloc_refines h.represents layout
  cases hp : a.place layout.align.toNat layout.size.toNat layout.align_pos with
  | none =>
    rw [hp] at href
    simp only [step, href, if_pos]
  | some p =>
    obtain ⟨s, b⟩ := p
    rw [hp] at href
    obtain ⟨hn, hs, hb⟩ := href
    have hstep : c.step (.alloc layout) =
        { heap := (BumpAllocator.alloc layout c.heap).2, blocks := s :: c.blocks } := by
      simp only [step, if_neg hn, hs]
    refine ⟨hs, hstep, ?_⟩
    rw [hstep]
    exact ⟨hb, h.holds.place hp, (Arena.place_eq_some hp).2.2.2.1⟩

theorem sound_step (c : Client) (e : Event) (h : c.Sound) : (c.step e).Sound := by
  obtain ⟨a, ha⟩ := h
  cases e with
  | alloc layout =>
    have hal := ha.alloc layout
    split at hal
    · exact ⟨_, hal.2.2⟩
    · rw [hal]
      exact ⟨a, ha⟩
  | dealloc => exact ⟨a, ha⟩
  | write address value =>
    by_cases hany : c.blocks.any (fun b => b.start ≤ address ∧ address < b.stop)
    · obtain ⟨b, hb, hin⟩ := List.any_eq_true.mp hany
      have hlow := (ha.holds.within b hb).1
      rw [ha.represents.bottom] at hlow
      have hin := of_decide_eq_true hin
      rw [show c.step (.write address value) = { c with heap := c.heap.set address value } from
        if_pos hany]
      exact ⟨a, ha.represents.set (Nat.le_trans hlow hin.1), ha.holds, ha.cursor⟩
    · rw [show c.step (.write address value) = c from if_neg hany]
      exact ⟨a, ha⟩

theorem sound_run (events : List Event) : (run step start events).Sound :=
  run_invariant sound_step sound_start events

/-! ## Safety -/

/-- What a request that is not answered with null gets. -/
structure Served (c : Client) (layout : Layout) (pointer : UInt64) : Prop where
  not_null : pointer ≠ nullMut
  aligned : layout.align.toNat ∣ pointer.toNat
  within : (block layout pointer).Within (heapStartAddress.toNat + 8)
    (heapStartAddress.toNat + heapLength.toNat)
  position : (block layout pointer).Apart ⟨posPtr.toNat, 8⟩
  earlier : ∀ b ∈ c.blocks, (block layout pointer).Apart b
  given : (c.step (.alloc layout)).blocks = block layout pointer :: c.blocks

/-- What a request that is answered with null leaves: every aligned range of its size in the
heap starts before a block already given out ends. -/
structure Refused (c : Client) (layout : Layout) (pointer : UInt64) : Prop where
  null : pointer = nullMut
  unchanged : c.step (.alloc layout) = c
  full : ∀ t : Span, layout.align.toNat ∣ t.start → t.size = layout.size.toNat →
    t.Within (heapStartAddress.toNat + 8) (heapStartAddress.toNat + heapLength.toNat) →
    ∃ b ∈ c.blocks, t.start < b.stop

end Client

/-- After every run from a zeroed heap, the alignment step of a request wraps nowhere, and the
request gets an aligned block of its own or finds no room and changes nothing. -/
theorem alloc_safe (events : List Client.Event) (layout : Layout) :
    let c := run Client.step .start events
    let pointer := (alloc layout c.heap).1
    (currentPos c.heap).toNat + layout.align.toNat < UInt64.size ∧
      (c.Served layout pointer ∨ c.Refused layout pointer) := by
  intro c pointer
  obtain ⟨a, ha⟩ := Client.sound_run events
  have hbot : bottomAddress.toNat = heapStartAddress.toNat + 8 := rfl
  have htop : topAddress.toNat = heapStartAddress.toNat + heapLength.toNat := rfl
  refine ⟨ha.represents.no_wrap, ?_⟩
  have href := alloc_refines ha.represents layout
  have hal := ha.alloc layout
  cases hp : a.place layout.align.toNat layout.size.toNat layout.align_pos with
  | some p =>
    obtain ⟨s, b⟩ := p
    rw [hp] at href hal
    obtain ⟨hn, hs, -⟩ := href
    obtain ⟨hnext, hb, htp, hc, hle⟩ := Arena.place_eq_some hp
    have hlow := Nat.le_trans a.bottom_le hle
    have hhigh := b.cursor_le
    rw [ha.represents.bottom] at hlow
    rw [hc, htp, ha.represents.top] at hhigh
    refine .inl ⟨hn, ?_, ?_, ?_, ?_, ?_⟩
    · have hstart : pointer.toNat = s.start := congrArg Span.start hs
      rw [hstart, hnext]
      exact dvd_alignUp
    · show (Client.block layout pointer).Within _ _
      rw [hs, ← hbot, ← htop]
      exact ⟨hlow, hhigh⟩
    · show (Client.block layout pointer).Apart _
      rw [hs]
      exact .inr hlow
    · show ∀ t ∈ c.blocks, (Client.block layout pointer).Apart t
      rw [hs]
      exact fun t ht => (ha.holds.apart_place hp t ht).symm
    · show (c.step (.alloc layout)).blocks = Client.block layout pointer :: c.blocks
      rw [hal.2.1, hs]
  | none =>
    rw [hp] at href hal
    refine .inr ⟨congrArg Prod.fst href, hal, fun t hd hsize ht => ?_⟩
    by_contra hno
    have hfree : ∀ b ∈ c.blocks, b.stop ≤ t.start := fun b hb =>
      Nat.not_lt.mp fun hlt => hno ⟨b, hb, hlt⟩
    apply Arena.place_eq_none.mp hp t hd hsize
    refine ⟨ha.cursor_le_iff.mpr ⟨ht.1, hfree⟩, ?_⟩
    rw [ha.represents.top, htop]
    exact ht.2

end ExternalSignature
