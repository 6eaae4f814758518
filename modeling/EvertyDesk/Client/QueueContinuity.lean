import EvertyDesk.Client.QueueConservation

/-!
The frame queue hands frames over without gaps, but at key frames, in every run in which
no operation loses a frame behind its back. So the chain of delta frames that goes into
the queue is the chain that comes out of it.
-/

namespace EvertyDesk.FrameQueue

/-- Each unit was enqueued after the one before it, directly if it is a delta frame. -/
def Linked : Option Nat → List QueuedUnit → Prop
  | _, [] => True
  | last, unit :: rest =>
      (∀ n, last = some n → n < unit.seq ∧ (unit.isKeyFrame = true ∨ unit.seq = n + 1)) ∧
        Linked (some unit.seq) rest

def lastSeq : Option Nat → List QueuedUnit → Option Nat
  | last, [] => last
  | _, unit :: rest => lastSeq (some unit.seq) rest

/-- The units held go on from the one returned last, and unless the queue waits for a key
frame, the next call goes on from them. -/
structure Continuous (last : Option Nat) (g : Inner) : Prop where
  linked : Linked last g.held
  bounded : ∀ n, lastSeq last g.held = some n → n < g.calls
  next : g.closed = false → g.waitingForKeyframe = false →
    ∀ n, lastSeq last g.held = some n → g.calls = n + 1

section Lists

variable {last : Option Nat} {units more : List QueuedUnit} {unit : QueuedUnit}

theorem Linked.front (h : Linked last (units ++ more)) : Linked last units := by
  induction units generalizing last with
  | nil => trivial
  | cons first rest ih => exact ⟨h.1, ih h.2⟩

theorem Linked.concat (h : Linked last units)
    (hunit : ∀ n, lastSeq last units = some n →
      n < unit.seq ∧ (unit.isKeyFrame = true ∨ unit.seq = n + 1)) :
    Linked last (units ++ [unit]) := by
  induction units generalizing last with
  | nil => exact ⟨hunit, trivial⟩
  | cons first rest ih => exact ⟨h.1, ih h.2 hunit⟩

theorem lastSeq_concat : lastSeq last (units ++ [unit]) = some unit.seq := by
  induction units generalizing last with
  | nil => rfl
  | cons first rest ih => exact ih

theorem lastSeq_append : lastSeq last (units ++ more) = lastSeq (lastSeq last units) more := by
  induction units generalizing last with
  | nil => rfl
  | cons first rest ih => exact ih

theorem Linked.le_lastSeq {n : Nat} (h : Linked (some n) units) :
    ∃ m, lastSeq (some n) units = some m ∧ n ≤ m := by
  induction units generalizing n with
  | nil => exact ⟨n, rfl, Nat.le_refl n⟩
  | cons first rest ih =>
      have hless := (h.1 n rfl).1
      obtain ⟨m, hlast, hle⟩ := ih h.2
      exact ⟨m, hlast, by omega⟩

theorem Linked.suffix (h : Linked last (units ++ more)) : Linked (lastSeq last units) more := by
  induction units generalizing last with
  | nil => exact h
  | cons first rest ih => exact ih h.2

end Lists

namespace Continuous

variable {last : Option Nat} {g : Inner}

theorem new (cfg : FrameQueueConfig) : Continuous none (Inner.new cfg) :=
  ⟨trivial, (fun _ h => nomatch h), fun _ _ _ h => nomatch h⟩

/-- A queue that is closed, or waits, has only to keep its units in line. -/
theorem stopped (hlinked : Linked last g.held)
    (hbounded : ∀ n, lastSeq last g.held = some n → n < g.calls)
    (hstopped : g.closed = true ∨ g.waitingForKeyframe = true) : Continuous last g := by
  refine ⟨hlinked, hbounded, fun hopen hrunning => ?_⟩
  obtain hclosed | hwaiting := hstopped
  · rw [hclosed] at hopen
    contradiction
  · rw [hwaiting] at hrunning
    contradiction

/-- What is left after the queue was emptied is still in line. -/
private theorem emptied {cleared : Inner} {bound : Nat} (hlinked : Linked last g.held)
    (hbounded : ∀ n, lastSeq last g.held = some n → n < bound) (hqueue : cleared.queue = [])
    (hcurrent : cleared.current = g.current ∨ cleared.current = none) :
    Linked last cleared.held ∧ ∀ n, lastSeq last cleared.held = some n → n < bound := by
  rw [Inner.held] at hlinked hbounded
  have hshorter : ∃ units more, cleared.held = units ∧
      g.current.toList ++ g.queue = units ++ more := by
    rw [Inner.held, hqueue, List.append_nil]
    obtain hsame | hnone := hcurrent
    · exact ⟨_, _, congrArg Option.toList hsame, rfl⟩
    · exact ⟨[], _, by rw [hnone]; rfl, rfl⟩
  obtain ⟨units, more, hunits, hall⟩ := hshorter
  rw [hall] at hlinked hbounded
  rw [hunits]
  refine ⟨hlinked.front, fun n hn => ?_⟩
  have hlater := hlinked.suffix
  rw [lastSeq_append, hn] at hbounded
  rw [hn] at hlater
  obtain ⟨m, hlast, hle⟩ := hlater.le_lastSeq
  exact Nat.lt_of_le_of_lt hle (hbounded m hlast)

private theorem push {unit : QueuedUnit} (hlinked : Linked last g.held)
    (hunit : ∀ n, lastSeq last g.held = some n →
      n < unit.seq ∧ (unit.isKeyFrame = true ∨ unit.seq = n + 1))
    (hcalls : g.calls = unit.seq + 1) : Continuous last (g.push unit) := by
  have hheld : (g.push unit).held = g.held ++ [unit] := by
    simp only [Inner.held, Inner.push_current, Inner.push_queue, List.append_assoc]
  have hnext : ∀ n, lastSeq last (g.push unit).held = some n → (g.push unit).calls = n + 1 := by
    intro n hlast
    rw [hheld, lastSeq_concat] at hlast
    obtain rfl := Option.some.inj hlast
    exact hcalls
  refine ⟨hheld ▸ hlinked.concat hunit, fun n hlast => ?_, fun _ _ => hnext⟩
  rw [hnext n hlast]
  exact Nat.lt_succ_self n

private theorem enqueueInner {unit : QueuedUnit} (hlinked : Linked last g.held)
    (hbounded : ∀ n, lastSeq last g.held = some n → n < unit.seq)
    (hnext : g.closed = false → g.waitingForKeyframe = false →
      ∀ n, lastSeq last g.held = some n → unit.seq = n + 1)
    (hcalls : g.calls = unit.seq + 1)
    (hkeeps : KeepsLoss g (.enqueue unit.bytes unit.isKeyFrame unit.presentationTimeUs
      unit.enqueuedAt)) : Continuous last (g.enqueueInner unit) := by
  have hless : ∀ n, n < unit.seq → n < g.calls := fun n h => by omega
  cases hclosed : g.closed with
  | true =>
      rw [Inner.enqueueInner_closed hclosed]
      exact stopped hlinked (fun n hn => hless n (hbounded n hn)) (.inl hclosed)
  | false =>
      obtain ⟨habsurd, -⟩ | ⟨hwaiting, heq⟩ | ⟨cleared, hempty, hunit, heq⟩ |
        ⟨cleared, hempty, heq⟩ | ⟨hrunning, -, heq⟩ := @Inner.enqueueInner_cases g unit
      · rw [hclosed] at habsurd
        contradiction
      · rw [heq]
        exact stopped hlinked (fun n hn => hless n (hbounded n hn)) (.inr hwaiting)
      · obtain ⟨hkept, hbelow⟩ := emptied hlinked hbounded hempty.queue hempty.current
        rw [heq]
        refine push hkept (fun n hn => ⟨hbelow n hn, ?_⟩) (hempty.calls.trans hcalls)
        obtain hkey | ⟨hrunning, hqueue, hcurrent⟩ | hbreaks := hunit
        · exact .inl hkey
        -- nothing was held, so nothing is lost by emptying
        · refine .inr (hnext hclosed hrunning n ?_)
          have hnone : cleared.current = none := by
            obtain hsame | hnone := hempty.current
            · exact hsame.trans hcurrent
            · exact hnone
          have hboth : cleared.held = g.held := by
            rw [Inner.held, Inner.held, hempty.queue, hqueue, hnone, hcurrent]
          exact hboth ▸ hn
        · exact absurd hkeeps hbreaks
      · obtain ⟨hkept, hbelow⟩ := emptied hlinked hbounded hempty.queue hempty.current
        have hcount : cleared.calls = g.calls := hempty.calls
        rw [heq]
        exact stopped hkept (fun n hn => hcount.symm ▸ hless n (hbelow n hn)) (.inr rfl)
      · rw [heq]
        refine push hlinked (fun n hn => ⟨hbounded n hn, ?_⟩) hcalls
        exact .inr (hnext hclosed hrunning n hn)

theorem held_advance : g.advance.held = g.held := by
  unfold Inner.advance Inner.held
  split
  · next hcurrent hqueue => rw [hcurrent, hqueue]; rfl
  · rfl

private theorem advance_state : g.advance.closed = g.closed ∧
    g.advance.waitingForKeyframe = g.waitingForKeyframe ∧ g.advance.calls = g.calls := by
  unfold Inner.advance
  split <;> exact ⟨rfl, rfl, rfl⟩

/-- What comes out of the queue is a key frame or goes on from what came out before. -/
theorem dequeuePass (h : Continuous last g) (cancel : Bool) (now : Nat) :
    Continuous (((g.dequeuePass cancel now).2.result.map (·.seq)).or last)
        (g.dequeuePass cancel now).1 ∧
      ∀ unit, (g.dequeuePass cancel now).2.result = some unit →
        unit ∈ g.held ∧ ∀ n, last = some n →
          n < unit.seq ∧ (unit.isKeyFrame = true ∨ unit.seq = n + 1) := by
  unfold Inner.dequeuePass
  split
  · exact ⟨h, fun unit habsurd => nomatch habsurd⟩
  · have hadvanced : Continuous last g.advance := by
      obtain ⟨hclosed, hwaiting, hcalls⟩ := advance_state (g := g)
      refine ⟨(held_advance (g := g)).symm ▸ h.linked, ?_, ?_⟩
      · rw [hcalls, held_advance]
        exact h.bounded
      · rw [hclosed, hwaiting, hcalls, held_advance]
        exact h.next
    dsimp only
    split
    · next unit hcurrent =>
        split
        · exact ⟨hadvanced, fun unit habsurd => nomatch habsurd⟩
        · have hheld : g.advance.held = unit :: g.advance.queue := by
            rw [Inner.held, hcurrent]
            rfl
          obtain ⟨hlinked, hbounded, hnext⟩ := hadvanced
          rw [hheld] at hlinked hbounded hnext
          refine ⟨⟨hlinked.2, hbounded, hnext⟩, ?_⟩
          rintro taken htaken
          obtain rfl := Option.some.inj htaken
          refine ⟨?_, hlinked.1⟩
          rw [← held_advance, hheld]
          exact List.mem_cons_self
    · exact ⟨hadvanced, fun unit habsurd => nomatch habsurd⟩

theorem enqueue (h : Continuous last g) (bytes : List UInt8) (isKeyFrame : Bool)
    (presentationTimeUs now : Nat)
    (hkeeps : KeepsLoss g (.enqueue bytes isKeyFrame presentationTimeUs now)) :
    Continuous last (g.enqueue bytes isKeyFrame presentationTimeUs now) := by
  apply enqueueInner
  case hlinked => exact h.linked
  case hbounded => exact h.bounded
  case hnext => exact h.next
  case hcalls => rfl
  case hkeeps => exact hkeeps

theorem setJitterDelay (h : Continuous last g) (delay : Nat) :
    Continuous last (g.setJitterDelay delay) :=
  ⟨h.linked, h.bounded, h.next⟩

theorem waitForKeyframe (h : Continuous last g) : Continuous last g.waitForKeyframe := by
  unfold Inner.waitForKeyframe
  split
  · exact h
  · have hempty := g.emptied_dropCurrentOnWait
    obtain ⟨hkept, hbelow⟩ := emptied h.linked h.bounded hempty.queue hempty.current
    exact stopped hkept (fun n hn => hempty.calls.symm ▸ hbelow n hn) (.inr rfl)

theorem close (h : Continuous last g) : Continuous last g.close := by
  have hqueue : g.close.queue = [] := by
    rw [Inner.close, Inner.dropCurrent_queue, Inner.clearQueue_queue]
  have hcalls : g.close.calls = g.calls := by
    rw [Inner.close, Inner.dropCurrent_calls, Inner.clearQueue_calls]
  have hclosed : g.close.closed = true := by
    rw [Inner.close, Inner.dropCurrent_closed, Inner.clearQueue_closed]
  obtain ⟨hkept, hbelow⟩ := emptied h.linked h.bounded hqueue (.inr (Inner.dropCurrent_current _))
  exact stopped hkept (fun n hn => hcalls.symm ▸ hbelow n hn) (.inl hclosed)

end Continuous

end EvertyDesk.FrameQueue
