import EvertyDesk.Client.FrameQueueSafety
import Mathlib.Algebra.GroupWithZero.Nat

/-!
Where the units of the client's queue are: each that was handed to it while it was open
was returned, counted as dropped, or is held. The unit that waits in the decoder's place is
held besides those that the limit of the configuration is about.
-/

namespace EvertyDesk.FrameQueue

/-- The units that the queue holds, with the one in the decoder's place. -/
def Inner.held (g : Inner) : List QueuedUnit := g.current.toList ++ g.queue

def totalBytes (units : List QueuedUnit) : Nat := (units.map (·.bytes.length)).sum

/-- The unit a pass hands to the decoder. -/
def Inner.Pass.result : Inner.Pass → Option QueuedUnit
  | .returned unit => some unit
  | _ => none

/-- One for each call of `enqueue` on an open queue. -/
def offered (g : Inner) : Op → Nat
  | .enqueue .. => if g.closed then 0 else 1
  | _ => 0

/-- The dropped units and those that are held. -/
def Inner.kept (g : Inner) : Nat := g.droppedUnits + g.held.length

namespace Inner

variable {g : Inner} {unit : QueuedUnit}

theorem stats_queuedUnits : g.stats.queuedUnits = g.held.length := by
  cases hcurrent : g.current with
  | none => simp [stats, held, hcurrent]
  | some unit => simp [stats, held, hcurrent]

theorem stats_queuedBytes (h : g.queuedBytes = totalBytes g.queue) :
    g.stats.queuedBytes = totalBytes g.held := by
  cases hcurrent : g.current with
  | none => simp [stats, held, totalBytes, hcurrent, h]
  | some unit => simp [stats, held, totalBytes, hcurrent, h, Nat.add_comm]

theorem kept_clearQueue : g.clearQueue.kept = g.kept := by
  simp only [kept, held, clearQueue, List.length_append, List.length_nil]
  omega

theorem kept_dropCurrent : g.dropCurrent.kept = g.kept := by
  unfold dropCurrent
  cases hcurrent : g.current with
  | none => rfl
  | some unit =>
      simp only [kept, held, hcurrent, List.length_append, Option.toList_some,
        Option.toList_none, List.length_singleton, List.length_nil]
      omega

theorem Emptied.kept {cleared : Inner} (h : g.Emptied cleared) : cleared.kept = g.kept := by
  rcases h with rfl | rfl
  · exact kept_clearQueue
  · exact kept_dropCurrent.trans kept_clearQueue

theorem kept_push : (g.push unit).kept = g.kept + 1 := by
  simp only [Inner.kept, held, push, List.length_append, List.length_singleton]
  omega

theorem kept_refuse : (g.refuse unit).kept = g.kept + 1 := by
  simp only [Inner.kept, held, refuse]
  omega

theorem enqueueInner_closed (hclosed : g.closed = true) : g.enqueueInner unit = g := if_pos hclosed

/-- A unit that an open queue is given is held or dropped. -/
theorem kept_enqueueInner (hopen : g.closed = false) : (g.enqueueInner unit).kept = g.kept + 1 := by
  rcases g.enqueueInner_cases unit with ⟨hclosed, _⟩ | ⟨_, refused⟩ |
    ⟨cleared, hempty, _, taken⟩ | ⟨cleared, hempty, lost⟩ | ⟨_, _, pushed⟩
  · rw [hopen] at hclosed
    cases hclosed
  · rw [refused, kept_refuse]
  · rw [taken, kept_push, ← hempty.kept]
    rfl
  · have hrefused : (cleared.refuse unit).kept = cleared.kept + 1 := kept_refuse
    rw [lost, ← hempty.kept]
    exact hrefused
  · rw [pushed, kept_push]

theorem kept_advance : g.advance.kept = g.kept := by
  unfold advance
  split
  · next unit rest hcurrent hqueue =>
      simp only [Inner.kept, held, hcurrent, hqueue, List.length_append, Option.toList_some,
        Option.toList_none, List.length_cons, List.length_nil]
      omega
  · rfl

/-- A unit that is returned is not held any more. -/
theorem kept_dequeuePass (cancel : Bool) (now : Nat) :
    g.kept = (g.dequeuePass cancel now).2.result.toList.length +
      (g.dequeuePass cancel now).1.kept := by
  unfold dequeuePass
  split
  · exact (Nat.zero_add _).symm
  · dsimp only
    rw [← kept_advance]
    split
    · next unit hcurrent =>
        split
        · exact (Nat.zero_add _).symm
        · simp only [Inner.kept, held, hcurrent, Pass.result, List.length_append,
            Option.toList_some, Option.toList_none, List.length_singleton, List.length_nil]
          omega
    · exact (Nat.zero_add _).symm

end Inner

/-- What one critical section does to the units. -/
theorem kept_step (g : Inner) (op : Op) :
    g.kept + offered g op = ((machine.step g op).2.bind Inner.Pass.result).toList.length +
      (machine.step g op).1.kept := by
  cases op with
  | enqueue bytes key pts now =>
      cases hclosed : g.closed with
      | true =>
          have hsame : g.enqueue bytes key pts now = { g with calls := g.calls + 1 } :=
            Inner.enqueueInner_closed hclosed
          have hkept : (g.enqueue bytes key pts now).kept = g.kept := by
            rw [hsame]
            rfl
          simp [machine, offered, hclosed, hkept]
      | false =>
          have hkept : (g.enqueue bytes key pts now).kept = g.kept + 1 :=
            Inner.kept_enqueueInner (g := { g with calls := g.calls + 1 }) hclosed
          simp [machine, offered, hclosed, hkept]
  | dequeuePass cancel now => exact g.kept_dequeuePass cancel now
  | setJitterDelay delay => exact (Nat.zero_add _).symm
  | waitForKeyframe =>
      have hkept : g.waitForKeyframe.kept = g.kept := by
        unfold Inner.waitForKeyframe
        split
        · rfl
        · exact g.emptied_dropCurrentOnWait.kept
      simp [machine, offered, hkept]
  | flush wait =>
      have hkept : (g.flush wait).kept = g.kept :=
        Inner.kept_dropCurrent.trans Inner.kept_clearQueue
      simp [machine, offered, hkept]
  | close =>
      have hkept : g.close.kept = g.kept := Inner.kept_dropCurrent.trans Inner.kept_clearQueue
      simp [machine, offered, hkept]

/-- What the counters of a queue say is so, and the queue itself is within its limit. -/
structure Counted (cfg : FrameQueueConfig) (g : Inner) : Prop where
  cfg_eq : g.cfg = cfg
  queuedBytes : g.queuedBytes = totalBytes g.queue
  limit : g.queue.length ≤ max 1 cfg.maxQueuedUnits

namespace Counted

variable {cfg : FrameQueueConfig} {g : Inner} {unit : QueuedUnit}

theorem new (cfg : FrameQueueConfig) : Counted cfg (Inner.new cfg) := by
  constructor
  · rfl
  · rfl
  · exact Nat.zero_le _

/-- An emptied queue has room for one unit under any limit. -/
theorem emptied {cleared : Inner} (h : Counted cfg g) (hempty : g.Emptied cleared) :
    Counted cfg cleared ∧ cleared.queue = [] := by
  have hqueue := hempty.queue
  have hbytes : cleared.queuedBytes = 0 ∧ cleared.cfg = g.cfg := by
    rcases hempty with rfl | rfl
    · exact ⟨rfl, rfl⟩
    · unfold Inner.dropCurrent
      split <;> exact ⟨rfl, rfl⟩
  refine ⟨⟨hbytes.2.trans h.cfg_eq, ?_, ?_⟩, hqueue⟩
  · rw [hbytes.1, hqueue]
    rfl
  · rw [hqueue]
    exact Nat.zero_le _

theorem push (h : Counted cfg g) (hroom : g.queue.length < max 1 cfg.maxQueuedUnits) :
    Counted cfg (g.push unit) := by
  refine ⟨h.cfg_eq, ?_, ?_⟩
  · simp [Inner.push, totalBytes, h.queuedBytes]
  · rw [Inner.push_queue, List.length_append, List.length_singleton]
    exact hroom

theorem enqueueInner (h : Counted cfg g) : Counted cfg (g.enqueueInner unit) := by
  rcases g.enqueueInner_cases unit with ⟨_, same⟩ | ⟨_, refused⟩ |
    ⟨cleared, hempty, _, taken⟩ | ⟨cleared, hempty, lost⟩ | ⟨_, room, pushed⟩
  · rw [same]
    exact h
  · rw [refused]
    exact ⟨h.cfg_eq, h.queuedBytes, h.limit⟩
  · obtain ⟨hcounted, hqueue⟩ := h.emptied hempty
    rw [taken]
    apply push
    · exact ⟨hcounted.cfg_eq, hcounted.queuedBytes, hcounted.limit⟩
    · rw [hqueue]
      exact Nat.lt_of_lt_of_le Nat.one_pos (Nat.le_max_left 1 _)
  · obtain ⟨hcounted, -⟩ := h.emptied hempty
    rw [lost]
    exact ⟨hcounted.cfg_eq, hcounted.queuedBytes, hcounted.limit⟩
  · rw [pushed]
    apply h.push
    simp only [Inner.overflows, h.cfg_eq, Bool.or_eq_false_iff, decide_eq_false_iff_not] at room
    omega

theorem advance (h : Counted cfg g) : Counted cfg g.advance := by
  unfold Inner.advance
  split
  · next unit rest _ hqueue =>
      have hbytes := h.queuedBytes
      have hlimit := h.limit
      rw [hqueue] at hbytes hlimit
      refine ⟨h.cfg_eq, ?_, Nat.le_trans (Nat.le_succ _) hlimit⟩
      rw [hbytes, totalBytes, List.map_cons, List.sum_cons, Nat.add_sub_cancel_left, totalBytes]
  · exact h

theorem step (h : Counted cfg g) (op : Op) : Counted cfg (machine.step g op).1 := by
  cases op with
  | enqueue bytes key pts now =>
      exact enqueueInner ⟨h.cfg_eq, h.queuedBytes, h.limit⟩
  | dequeuePass cancel now =>
      change Counted cfg (g.dequeuePass cancel now).1
      unfold Inner.dequeuePass
      split
      · exact h
      · dsimp only
        have hadvance := h.advance
        split
        · split
          · exact hadvance
          · exact ⟨hadvance.cfg_eq, hadvance.queuedBytes, hadvance.limit⟩
        · exact hadvance
  | setJitterDelay delay => exact ⟨h.cfg_eq, h.queuedBytes, h.limit⟩
  | waitForKeyframe =>
      change Counted cfg g.waitForKeyframe
      unfold Inner.waitForKeyframe
      split
      · exact h
      · obtain ⟨hcounted, -⟩ := h.emptied g.emptied_dropCurrentOnWait
        exact ⟨hcounted.cfg_eq, hcounted.queuedBytes, hcounted.limit⟩
  | flush wait =>
      obtain ⟨hcounted, -⟩ := h.emptied (Or.inr rfl)
      exact ⟨hcounted.cfg_eq, hcounted.queuedBytes, hcounted.limit⟩
  | close =>
      have hclosed : Counted cfg { g with closed := true } := ⟨h.cfg_eq, h.queuedBytes, h.limit⟩
      exact (hclosed.emptied (Or.inr rfl)).1

theorem run (cfg : FrameQueueConfig) (ops : List Op) :
    Counted cfg (machine.run (Inner.new cfg) ops) :=
  machine.invariant (C := fun _ _ => True) (fun _ op h _ => h.step op)
    (new cfg) (machine.along_of_forall (fun _ _ => trivial) _ _)

end Counted

/-- The balance of a queue after some operations: of the units that it was given, those that
it returned, counted as dropped and holds; the sizes of those that it holds; and their
number, with one in the decoder's place besides the queue itself. -/
structure Balanced (cfg : FrameQueueConfig) (ops : List Op) (g : Inner) : Prop where
  units : machine.tally offered (Inner.new cfg) ops =
    ((machine.outputs (Inner.new cfg) ops).filterMap (·.bind Inner.Pass.result)).length +
      g.stats.droppedUnits + g.stats.queuedUnits
  held_units : g.stats.queuedUnits = g.held.length
  queue_bytes : g.queuedBytes = totalBytes g.queue
  held_bytes : g.stats.queuedBytes = totalBytes g.held
  queue_limit : g.queue.length ≤ max 1 cfg.maxQueuedUnits
  held_limit : g.stats.queuedUnits ≤ max 1 cfg.maxQueuedUnits + 1

/-- For every configuration and every interleaving. -/
theorem queue_is_balanced (cfg : FrameQueueConfig) (ops : List Op) :
    Balanced cfg ops (machine.run (Inner.new cfg) ops) := by
  have hcounted := Counted.run cfg ops
  have hkept := machine.conserved (·.bind Inner.Pass.result) kept_step (Inner.new cfg) ops
  have hnew : (Inner.new cfg).kept = 0 := rfl
  constructor
  · rw [Inner.stats_queuedUnits]
    rw [hnew, Nat.zero_add, Inner.kept, ← Nat.add_assoc] at hkept
    exact hkept
  · exact Inner.stats_queuedUnits
  · exact hcounted.queuedBytes
  · exact Inner.stats_queuedBytes hcounted.queuedBytes
  · exact hcounted.limit
  · have hplace : (machine.run (Inner.new cfg) ops).current.toList.length ≤ 1 := by
      cases (machine.run (Inner.new cfg) ops).current <;> simp
    have hlimit := hcounted.limit
    rw [Inner.stats_queuedUnits, Inner.held, List.length_append]
    omega

/-- In media mode a unit waits in the decoder's place for its delay to pass, while the
queue behind it fills up to its limit of four. -/
theorem place_is_beyond_limit :
    ¬ ∀ (cfg : FrameQueueConfig) (ops : List Op),
      (machine.run (Inner.new cfg) ops).stats.queuedUnits ≤ max 1 cfg.maxQueuedUnits := by
  intro hall
  have hheld := hall .cinema [.enqueue [] true 0 0, .dequeuePass false 0,
    .enqueue [] false 0 0, .enqueue [] false 0 0, .enqueue [] false 0 0, .enqueue [] false 0 0]
  revert hheld
  decide

end EvertyDesk.FrameQueue
