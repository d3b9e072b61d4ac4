import ExternalSignature.Lib.Arena
import ExternalSignature.Lib.Bytes
import ExternalSignature.Lib.Run

/-!
# The heap allocator

`BumpAllocator.alloc` hands out the heap upward. The first word of the heap holds the position of
the next block and is zero until the first allocation. A `Client` allocates and writes into the
blocks it was given, so that the position word shares its memory with everything the program
stores.
-/

namespace ExternalSignature

open Lib

/-! ## Memory -/

/-- The byte at each address. -/
abbrev Heap := Nat → UInt8

namespace Heap

/-- A heap frame as the runtime provides it. -/
def zeroed : Heap := fun _ => 0

/-- The `usize` at an address. -/
def load (heap : Heap) (address : UInt64) : UInt64 :=
  .ofNat (leNat ((List.range 8).map fun i => heap (address.toNat + i)))

/-- Store a `usize`. -/
def store (heap : Heap) (address value : UInt64) : Heap := fun a =>
  if address.toNat ≤ a ∧ a < address.toNat + 8 then
    (leBytes 8 value.toNat).getD (a - address.toNat) 0
  else heap a

/-- Store a byte. -/
def set (heap : Heap) (address : Nat) (value : UInt8) : Heap := Function.update heap address value

@[simp] theorem load_store (heap : Heap) (address value : UInt64) :
    (heap.store address value).load address = value := by
  have hbytes : ((List.range 8).map fun i => heap.store address value (address.toNat + i)) =
      leBytes 8 value.toNat := by
    apply List.ext_getElem
    · simp
    · intro i hi _
      have hi : i < 8 := by simpa using hi
      simp [store, hi]
  rw [load, hbytes, leNat_leBytes (by have := value.toNat_lt; omega), UInt64.ofNat_toNat]

/-- A byte elsewhere does not change a word. -/
theorem load_set {heap : Heap} {address : UInt64} {a : Nat} {value : UInt8}
    (h : a < address.toNat ∨ address.toNat + 8 ≤ a) :
    (heap.set a value).load address = heap.load address := by
  unfold load set
  congr 2
  apply List.map_congr_left
  intro i hi
  have hi := List.mem_range.mp hi
  exact Function.update_of_ne (by omega) ..

end Heap

/-! ## The allocator -/

/-- `std::alloc::Layout`, with sizes beyond the ones a `Layout` may have. -/
structure Layout where
  size : UInt64
  align : UInt64
  isPowerOfTwo : ∃ k, align.toNat = 2 ^ k

theorem Layout.align_pos (layout : Layout) : 0 < layout.align.toNat := by
  obtain ⟨k, hk⟩ := layout.isPowerOfTwo
  rw [hk]
  exact Nat.two_pow_pos k

/-- An alignment is at most the highest power of two a word holds. -/
theorem Layout.align_le (layout : Layout) : layout.align.toNat ≤ 2 ^ 63 := by
  obtain ⟨k, hk⟩ := layout.isPowerOfTwo
  have hlt := layout.align.toNat_lt
  rw [hk] at hlt ⊢
  exact Nat.pow_le_pow_right (by omega) (Nat.le_of_lt_succ ((Nat.pow_lt_pow_iff_right (by omega)).mp hlt))

/-- `usize::saturating_add`. -/
def saturatingAdd (a b : UInt64) : UInt64 :=
  if a.toNat + b.toNat < UInt64.size then a + b else 0xffffffffffffffff

theorem toNat_saturatingAdd (a b : UInt64) :
    (saturatingAdd a b).toNat = min (a.toNat + b.toNat) (UInt64.size - 1) := by
  unfold saturatingAdd
  split
  · rename_i h
    rw [UInt64.toNat_add, Nat.mod_eq_of_lt h]
    omega
  · have hmax : (0xffffffffffffffff : UInt64).toNat = UInt64.size - 1 := rfl
    rw [hmax]
    omega

/-- `pinocchio::entrypoint::HEAP_START_ADDRESS`. -/
def heapStartAddress : UInt64 := 0x300000000

/-- Length of the memory region used for program heap. -/
def heapLength : UInt64 := 8 * 32 * 1024

namespace BumpAllocator

def posPtr : UInt64 := heapStartAddress

def topAddress : UInt64 := heapStartAddress + heapLength

/-- Behind the position word. -/
def bottomAddress : UInt64 := heapStartAddress + 8

def nullMut : UInt64 := 0

/-- The position a request starts from: the bottom, the first time. -/
def currentPos (heap : Heap) : UInt64 :=
  let pos := heap.load posPtr
  if pos = 0 then bottomAddress else pos

def alloc (layout : Layout) (heap : Heap) : UInt64 × Heap :=
  let pos := currentPos heap
  let pos := (pos + layout.align - 1) &&& ~~~(layout.align - 1)
  let nextPos := saturatingAdd pos layout.size
  if topAddress < nextPos then (nullMut, heap)
  else (pos, heap.store posPtr nextPos)

end BumpAllocator

/-! ## Its client -/

/-- A program with its heap and the blocks it was given, the last one first. -/
structure Client where
  heap : Heap
  blocks : List Span

namespace Client

inductive Event where
  | alloc (layout : Layout)
  | dealloc
  | write (address : Nat) (value : UInt8)

def start : Client := { heap := .zeroed, blocks := [] }

/-- The block of a result that is not null. -/
def block (layout : Layout) (pointer : UInt64) : Span := ⟨pointer.toNat, layout.size.toNat⟩

/-- A program writes only into its blocks. -/
def step (c : Client) : Event → Client
  | .alloc layout =>
    let (pointer, heap) := BumpAllocator.alloc layout c.heap
    if pointer = BumpAllocator.nullMut then { c with heap }
    else { heap, blocks := block layout pointer :: c.blocks }
  | .dealloc => c
  | .write address value =>
    if c.blocks.any (fun b => b.start ≤ address ∧ address < b.stop) then
      { c with heap := c.heap.set address value }
    else c

end Client

end ExternalSignature
