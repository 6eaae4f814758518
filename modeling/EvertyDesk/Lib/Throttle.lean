import EvertyDesk.Lib.Observations
import Mathlib.Data.List.Sort

/-!
Throttled actions: something is asked for at a number of times, and done each time it is
asked for unless it was done less than an interval ago. Times are natural numbers of one
unit; the time before the first one may lie before the clock's start.
-/

namespace EvertyDesk

/-- The times at which the action is done, of the times at which it is asked for. -/
def fires (interval : Nat) : Int → List Nat → List Nat
  | _, [] => []
  | last, asked :: rest =>
      if (interval : Int) ≤ asked - last then asked :: fires interval asked rest
      else fires interval last rest

/-- In a stretch of time, no wait for the next time of the list exceeds the gap. -/
def Dense (gap start finish : Nat) (times : List Nat) : Prop :=
  ∀ t, start ≤ t → t + gap ≤ finish → ∃ asked ∈ times, t ≤ asked ∧ asked ≤ t + gap

theorem Dense.mono {gap start finish : Nat} {times more : List Nat}
    (h : Dense gap start finish times) (hsub : ∀ t ∈ times, t ∈ more) :
    Dense gap start finish more := by
  intro t hstart hfinish
  obtain ⟨asked, hmem, hbounds⟩ := h t hstart hfinish
  exact ⟨asked, hsub asked hmem, hbounds⟩

section Fires

variable {interval : Nat}

theorem mem_of_mem_fires {last : Int} {times : List Nat} {t : Nat}
    (h : t ∈ fires interval last times) : t ∈ times := by
  induction times generalizing last with
  | nil => exact h
  | cons asked rest ih =>
      simp only [fires] at h
      split at h
      · obtain rfl | h := List.mem_cons.mp h
        · exact List.mem_cons_self
        · exact List.mem_cons_of_mem _ (ih h)
      · exact List.mem_cons_of_mem _ (ih h)

/-- If the clock never goes back, each time lies an interval after the last one. -/
theorem fires_after {last : Int} {times : List Nat} (hsorted : times.Pairwise (· ≤ ·)) :
    ∀ t ∈ fires interval last times, last + interval ≤ t := by
  induction times generalizing last with
  | nil => intro t h; contradiction
  | cons asked rest ih =>
      obtain ⟨hasked, hrest⟩ := List.pairwise_cons.mp hsorted
      intro t h
      simp only [fires] at h
      split at h
      · next hdue =>
          have hle : asked ≤ t := by
            obtain rfl | h := List.mem_cons.mp h
            · exact Nat.le_refl t
            · exact hasked t (mem_of_mem_fires h)
          omega
      · exact ih hrest t h

/-- Any two times lie an interval apart. -/
theorem fires_spaced {last : Int} {times : List Nat} (hsorted : times.Pairwise (· ≤ ·)) :
    (fires interval last times).Pairwise fun t t' => t + interval ≤ t' := by
  induction times generalizing last with
  | nil => exact List.Pairwise.nil
  | cons asked rest ih =>
      obtain ⟨-, hrest⟩ := List.pairwise_cons.mp hsorted
      simp only [fires]
      split
      · refine List.pairwise_cons.mpr ⟨?_, ih hrest⟩
        intro t h
        have hafter := fires_after hrest t h
        omega
      · exact ih hrest

/-- Asked for densely from a time at which it is due, the action is done again after the
interval and the gap together at the latest. -/
private theorem finish_lt (start : Nat) (last : Int) {gap finish : Nat} {times : List Nat}
    (hinterval : 0 < interval) (hsorted : times.Pairwise (· ≤ ·))
    (hdue : last + interval ≤ start) (hdense : Dense gap start finish times) :
    finish < start + gap + (fires interval last times).length * (interval + gap) := by
  induction times generalizing start last with
  | nil =>
      by_contra hlong
      obtain ⟨asked, hmem, -⟩ :=
        hdense start (Nat.le_refl start) (by simp only [fires, List.length_nil] at hlong; omega)
      contradiction
  | cons asked rest ih =>
      obtain ⟨hfirst, hrest⟩ := List.pairwise_cons.mp hsorted
      have htail : ∀ start' : Nat, start ≤ start' → asked < start' →
          Dense gap start' finish rest := by
        intro start' hstart hasked t ht hfinish
        obtain ⟨t', hmem, hbounds⟩ := hdense t (Nat.le_trans hstart ht) hfinish
        obtain rfl | hmem := List.mem_cons.mp hmem
        · omega
        · exact ⟨t', hmem, hbounds⟩
      simp only [fires]
      split
      · -- The action is done; it is due again after the interval.
        rw [List.length_cons, Nat.succ_mul]
        have hnext := ih (max start (asked + interval)) asked hrest (by omega)
          (htail _ (by omega) (by omega))
        obtain hshort | hlong := Nat.lt_or_ge finish (start + gap)
        · omega
        · obtain ⟨t, hmem, -, ht⟩ := hdense start (Nat.le_refl start) hlong
          have hasked : asked ≤ t := by
            obtain rfl | hmem := List.mem_cons.mp hmem
            · exact Nat.le_refl t
            · exact hfirst t hmem
          omega
      · next hnot =>
          apply ih start last hrest hdue
          apply htail start (Nat.le_refl start)
          omega

/-- While it is asked for densely, the action is done at least once in any stretch that is
as long as the interval and the gap together. -/
theorem fires_often {gap start finish : Nat} {last : Int} {times : List Nat}
    (hinterval : 0 < interval) (hsorted : times.Pairwise (· ≤ ·)) (hlast : last ≤ start)
    (hdense : Dense gap start finish times) :
    (finish - start) / (interval + gap) ≤ (fires interval last times).length := by
  have hfinish := finish_lt (start + interval) last hinterval hsorted (by omega)
    (fun t ht => hdense t (by omega))
  apply Nat.le_of_lt_succ
  rw [Nat.div_lt_iff_lt_mul (by omega), Nat.succ_mul]
  omega

/-- A machine with a throttled action: it remembers when it was done last, and it is done
and put out at just those askings that are an interval later. -/
theorem outputs_eq_fires {State Input : Type*} {m : Machine State Input (Option Nat)}
    {asked : State → Input → Option Nat} {last : State → Int}
    (hquiet : ∀ s i, asked s i = none → (m.step s i).2 = none ∧ last (m.step s i).1 = last s)
    (hdone : ∀ s i t, asked s i = some t → (interval : Int) ≤ t - last s →
      (m.step s i).2 = some t ∧ last (m.step s i).1 = t)
    (hheld : ∀ s i t, asked s i = some t → ¬ (interval : Int) ≤ t - last s →
      (m.step s i).2 = none ∧ last (m.step s i).1 = last s)
    (s : State) (is : List Input) :
    (m.outputs s is).filterMap id = fires interval (last s) (m.observe asked s is) := by
  induction is generalizing s with
  | nil => rfl
  | cons i is ih =>
      rw [Machine.outputs_cons, Machine.observe_cons]
      have hrest := ih (m.step s i).1
      cases hasked : asked s i with
      | none =>
          obtain ⟨hout, hlast⟩ := hquiet s i hasked
          have hhead : id (m.step s i).2 = none := hout
          rw [List.filterMap_cons_none hhead, hrest, hlast, Option.toList_none, List.nil_append]
      | some t =>
          rw [Option.toList_some, List.singleton_append, fires]
          split
          · next hdue =>
              obtain ⟨hout, hlast⟩ := hdone s i t hasked hdue
              have hhead : id (m.step s i).2 = some t := hout
              rw [List.filterMap_cons_some hhead, hrest, hlast]
          · next hnot =>
              obtain ⟨hout, hlast⟩ := hheld s i t hasked hnot
              have hhead : id (m.step s i).2 = none := hout
              rw [List.filterMap_cons_none hhead, hrest, hlast]

end Fires

end EvertyDesk
