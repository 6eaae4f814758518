import Mathlib.Algebra.BigOperators.Group.List.Basic
import Mathlib.Algebra.Order.Ring.Nat

/-!
Queues of chunks of which the first may have been taken in part. Chunks may be thrown away
before they are taken, or while they are; what has been taken are the beginnings of some of
the chunks that were put in, in the same order.
-/

namespace EvertyDesk

structure ChunkQueue (Item : Type*) where
  chunks : List (List Item)
  /-- How much of the first chunk has been taken. -/
  offset : Nat
  offset_of_empty : chunks = [] → offset = 0

namespace ChunkQueue

variable {Item : Type*}

def empty : ChunkQueue Item := ⟨[], 0, fun _ => rfl⟩

def push (q : ChunkQueue Item) (chunk : List Item) : ChunkQueue Item where
  chunks := q.chunks ++ [chunk]
  offset := q.offset
  offset_of_empty h := absurd h (by simp)

/-- The first chunk is thrown away. -/
def dropFirst (q : ChunkQueue Item) : ChunkQueue Item := ⟨q.chunks.tail, 0, fun _ => rfl⟩

def advance (q : ChunkQueue Item) (n : Nat) (h : q.chunks ≠ []) : ChunkQueue Item where
  chunks := q.chunks
  offset := q.offset + n
  offset_of_empty hempty := absurd hempty h

/-- Chunks that have been taken whole are thrown away, so many at most. -/
def settle : Nat → ChunkQueue Item → ChunkQueue Item
  | 0, q => q
  | chunks + 1, q =>
      match q.chunks with
      | [] => q
      | front :: _ => if front.length ≤ q.offset then settle chunks q.dropFirst else q

/-- What is left of the first chunk. -/
def first (q : ChunkQueue Item) : List Item := (q.chunks.headD []).drop q.offset

/-- How many items are left. -/
def size (q : ChunkQueue Item) : Nat :=
  match q.chunks with
  | [] => 0
  | chunk :: rest => (chunk.length - q.offset) + (rest.map List.length).sum

/-- The beginnings of chunks. -/
def beginnings (parts : List (List Item × Nat)) : List Item :=
  parts.flatMap fun part => part.1.take part.2

/-- What has been taken of the chunks that were given, if these are left. -/
def Accounts (q : ChunkQueue Item) (taken : List Item) (given : List (List Item)) : Prop :=
  ∃ parts : List (List Item × Nat), (parts.map Prod.fst ++ q.chunks).Sublist given ∧
    taken = beginnings parts ++ (q.chunks.headD []).take q.offset

section Accounts

variable {q : ChunkQueue Item} {taken : List Item} {given : List (List Item)}

theorem accounts_empty : (empty : ChunkQueue Item).Accounts [] [] := ⟨[], List.Sublist.refl [], rfl⟩

variable (h : q.Accounts taken given)

include h

theorem Accounts.push (chunk : List Item) : (q.push chunk).Accounts taken (given ++ [chunk]) := by
  obtain ⟨parts, hsub, htaken⟩ := h
  refine ⟨parts, ?_, ?_⟩
  · rw [ChunkQueue.push, ← List.append_assoc]
    exact hsub.append (List.Sublist.refl [chunk])
  · rw [htaken]
    cases hchunks : q.chunks with
    | nil => simp [ChunkQueue.push, hchunks, q.offset_of_empty hchunks]
    | cons front rest => simp [ChunkQueue.push, hchunks]

theorem Accounts.dropFirst : q.dropFirst.Accounts taken given := by
  obtain ⟨parts, hsub, htaken⟩ := h
  cases hchunks : q.chunks with
  | nil =>
      rw [hchunks] at hsub htaken
      refine ⟨parts, ?_, ?_⟩
      · simpa [ChunkQueue.dropFirst, hchunks] using hsub
      · simpa [ChunkQueue.dropFirst, hchunks] using htaken
  | cons front rest =>
      rw [hchunks] at hsub htaken
      refine ⟨parts ++ [(front, q.offset)], ?_, ?_⟩
      · simpa [ChunkQueue.dropFirst, hchunks] using hsub
      · simpa [ChunkQueue.dropFirst, beginnings] using htaken

theorem Accounts.settle (chunks : Nat) : (q.settle chunks).Accounts taken given := by
  induction chunks generalizing q with
  | zero => exact h
  | succ chunks ih =>
      rw [ChunkQueue.settle]
      split
      · exact h
      · split
        · exact ih h.dropFirst
        · exact h

/-- Whatever is left may be thrown away. -/
theorem Accounts.clear : (empty : ChunkQueue Item).Accounts taken given := by
  obtain ⟨parts, hsub, htaken⟩ := h
  cases hchunks : q.chunks with
  | nil =>
      rw [hchunks] at hsub htaken
      exact ⟨parts, hsub, by simpa [empty] using htaken⟩
  | cons front rest =>
      rw [hchunks] at hsub htaken
      refine ⟨parts ++ [(front, q.offset)], ?_, ?_⟩
      · have hfirst : (parts.map Prod.fst ++ [front]).Sublist
            (parts.map Prod.fst ++ front :: rest) :=
          (List.Sublist.refl _).append (by simp)
        simpa [empty] using hfirst.trans hsub
      · simpa [empty, beginnings] using htaken

theorem Accounts.advance (n : Nat) (hsome : q.chunks ≠ []) :
    (q.advance n hsome).Accounts (taken ++ q.first.take n) given := by
  obtain ⟨parts, hsub, htaken⟩ := h
  refine ⟨parts, hsub, ?_⟩
  rw [htaken, first, ChunkQueue.advance, List.append_assoc, List.take_add]

/-- More chunks were given. -/
theorem Accounts.more {more : List (List Item)}
    (hmore : given.Sublist more) : q.Accounts taken more := by
  obtain ⟨parts, hsub, htaken⟩ := h
  exact ⟨parts, hsub.trans hmore, htaken⟩

theorem Accounts.parts :
    ∃ parts : List (List Item × Nat), (parts.map Prod.fst).Sublist given ∧
      taken = beginnings parts := by
  obtain ⟨parts, hsub, htaken⟩ := h.clear
  rw [empty, List.append_nil] at hsub
  exact ⟨parts, hsub, by simpa [empty] using htaken⟩

end Accounts

/-! How much is left when something is taken or thrown away. -/

/-- Not more is left than of the other queue. -/
structure AtMost (q q' : ChunkQueue Item) : Prop where
  size : q.size ≤ q'.size
  length : q.chunks.length ≤ q'.chunks.length

theorem AtMost.refl (q : ChunkQueue Item) : q.AtMost q := ⟨Nat.le_refl _, Nat.le_refl _⟩

theorem AtMost.trans {q q' q'' : ChunkQueue Item} (h : q.AtMost q') (h' : q'.AtMost q'') :
    q.AtMost q'' :=
  ⟨Nat.le_trans h.size h'.size, Nat.le_trans h.length h'.length⟩

theorem dropFirst_atMost (q : ChunkQueue Item) : q.dropFirst.AtMost q := by
  cases hchunks : q.chunks with
  | nil => exact ⟨by simp [size, dropFirst, hchunks], by simp [dropFirst, hchunks]⟩
  | cons front rest =>
      refine ⟨?_, by simp [dropFirst, hchunks]⟩
      cases rest with
      | nil => simp [size, dropFirst, hchunks]
      | cons next rest => simp [size, dropFirst, hchunks]

theorem settle_atMost (chunks : Nat) (q : ChunkQueue Item) : (q.settle chunks).AtMost q := by
  induction chunks generalizing q with
  | zero => exact .refl q
  | succ chunks ih =>
      rw [settle]
      split
      · exact .refl q
      · split
        · exact (ih q.dropFirst).trans q.dropFirst_atMost
        · exact .refl q

theorem advance_atMost (q : ChunkQueue Item) (n : Nat) (h : q.chunks ≠ []) :
    (q.advance n h).AtMost q := by
  refine ⟨?_, Nat.le_refl _⟩
  cases hchunks : q.chunks with
  | nil => exact absurd hchunks h
  | cons front rest =>
      simp only [size, advance, hchunks]
      omega

end ChunkQueue

end EvertyDesk
