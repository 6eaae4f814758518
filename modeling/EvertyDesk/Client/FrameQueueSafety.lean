import EvertyDesk.Client.FrameQueue

/-!
Loss safety of the frame queue: what a delta frame may follow. A unit that the
queue dropped is missing from every later delta frame, until a key frame that
was taken in after the drop reaches the decoder.

The result is relative to a point of the run. From any point on, as long as no
operation takes in a delta frame over a loss on purpose, every loss from there
on is repaired before a later delta frame is returned.
-/

namespace EvertyDesk.FrameQueue

/-- A key frame was taken in and returned among these events. -/
def Cleared (events : List Event) : Prop :=
  ∃ key : QueuedUnit, key.isKeyFrame = true ∧ .enqueued key ∈ events ∧ .returned key ∈ events

/-- Between a drop and the return of a younger delta frame there is a key
frame, taken in after the drop and returned before the delta frame. -/
def LossSafe (log : List Event) : Prop :=
  ∀ (before between after : List Event) (lost unit : QueuedUnit),
    log = before ++ .dropped lost :: (between ++ .returned unit :: after) →
    unit.isKeyFrame = false → lost.seq < unit.seq → Cleared between

/-- A queue that has nothing to lose and refuses nothing. -/
def Inner.Idle (g : Inner) : Prop := g.waitingForKeyframe = false ∧ g.queue = [] ∧ g.current = none

instance (g : Inner) : Decidable g.Idle := by
  unfold Inner.Idle; infer_instance

/-- The operations that take in a delta frame over a loss without waiting for
a key frame are excluded: replacement of the queue by the newest unit, an
overflow that finds or makes the decoder's place free, and a flush that is
told not to wait. -/
def KeepsLoss (g : Inner) : Op → Prop
  | .enqueue bytes isKeyFrame _ _ =>
      isKeyFrame = true ∨ g.closed = true ∨ g.waitingForKeyframe = true ∨
        (¬ (g.cfg.preferLatest = true ∧ g.queue ≠ []) ∧
          ¬ (g.overflows bytes.length = true ∧
            (g.cfg.dropCurrentOnWait = true ∨ g.current = none) ∧
            (g.queue ≠ [] ∨ g.current ≠ none)))
  | .flush wait =>
      wait = true ∨ g.Idle
  | _ => True

instance (g : Inner) (op : Op) : Decidable (KeepsLoss g op) := by
  cases op <;> unfold KeepsLoss <;> infer_instance

namespace Inner

variable (g : Inner) (unit : QueuedUnit)

@[simp] theorem clearQueue_queue : g.clearQueue.queue = [] := rfl
@[simp] theorem clearQueue_current : g.clearQueue.current = g.current := rfl
@[simp] theorem clearQueue_waiting :
    g.clearQueue.waitingForKeyframe = g.waitingForKeyframe := rfl
@[simp] theorem clearQueue_closed : g.clearQueue.closed = g.closed := rfl
@[simp] theorem clearQueue_cfg : g.clearQueue.cfg = g.cfg := rfl
@[simp] theorem clearQueue_calls : g.clearQueue.calls = g.calls := rfl
@[simp] theorem clearQueue_log :
    g.clearQueue.log = g.log ++ g.queue.map .dropped := rfl

@[simp] theorem dropCurrent_queue : g.dropCurrent.queue = g.queue := by
  unfold dropCurrent; split <;> rfl
@[simp] theorem dropCurrent_current : g.dropCurrent.current = none := by
  unfold dropCurrent
  split
  · rfl
  · assumption
@[simp] theorem dropCurrent_waiting :
    g.dropCurrent.waitingForKeyframe = g.waitingForKeyframe := by
  unfold dropCurrent; split <;> rfl
@[simp] theorem dropCurrent_closed : g.dropCurrent.closed = g.closed := by
  unfold dropCurrent; split <;> rfl
@[simp] theorem dropCurrent_calls : g.dropCurrent.calls = g.calls := by
  unfold dropCurrent; split <;> rfl
theorem dropCurrent_log : g.dropCurrent.log = g.log ++ g.current.toList.map .dropped := by
  unfold dropCurrent; split <;> simp_all

@[simp] theorem dropCurrentOnWait_queue :
    g.dropCurrentOnWait.queue = g.queue := by
  unfold dropCurrentOnWait; split <;> simp
theorem dropCurrentOnWait_current :
    g.dropCurrentOnWait.current =
      if g.cfg.dropCurrentOnWait then none else g.current := by
  unfold dropCurrentOnWait; split <;> simp
@[simp] theorem dropCurrentOnWait_waiting :
    g.dropCurrentOnWait.waitingForKeyframe = g.waitingForKeyframe := by
  unfold dropCurrentOnWait; split <;> simp
@[simp] theorem dropCurrentOnWait_closed :
    g.dropCurrentOnWait.closed = g.closed := by
  unfold dropCurrentOnWait; split <;> simp
@[simp] theorem dropCurrentOnWait_calls :
    g.dropCurrentOnWait.calls = g.calls := by
  unfold dropCurrentOnWait; split <;> simp

@[simp] theorem push_queue : (g.push unit).queue = g.queue ++ [unit] := rfl
@[simp] theorem push_current : (g.push unit).current = g.current := rfl
@[simp] theorem push_waiting :
    (g.push unit).waitingForKeyframe = g.waitingForKeyframe := rfl
@[simp] theorem push_closed : (g.push unit).closed = g.closed := rfl
@[simp] theorem push_calls : (g.push unit).calls = g.calls := rfl
@[simp] theorem push_log :
    (g.push unit).log = g.log ++ [.enqueued unit] := rfl

@[simp] theorem refuse_queue : (g.refuse unit).queue = g.queue := rfl
@[simp] theorem refuse_current : (g.refuse unit).current = g.current := rfl
@[simp] theorem refuse_waiting :
    (g.refuse unit).waitingForKeyframe = g.waitingForKeyframe := rfl
@[simp] theorem refuse_closed : (g.refuse unit).closed = g.closed := rfl
@[simp] theorem refuse_calls : (g.refuse unit).calls = g.calls := rfl
@[simp] theorem refuse_log :
    (g.refuse unit).log = g.log ++ [.dropped unit] := rfl

/-- The queue was cleared, and the decoder's place may have been. -/
def Emptied (g cleared : Inner) : Prop :=
  cleared = g.clearQueue ∨ cleared = g.clearQueue.dropCurrent

theorem emptied_dropCurrentOnWait : g.Emptied g.clearQueue.dropCurrentOnWait := by
  unfold dropCurrentOnWait
  split
  · exact Or.inr rfl
  · exact Or.inl rfl

namespace Emptied

variable {g : Inner} {cleared : Inner}

theorem queue (h : g.Emptied cleared) : cleared.queue = [] := by
  rcases h with rfl | rfl <;> simp

theorem current (h : g.Emptied cleared) : cleared.current = g.current ∨ cleared.current = none := by
  rcases h with rfl | rfl <;> simp

theorem closed (h : g.Emptied cleared) : cleared.closed = g.closed := by
  rcases h with rfl | rfl <;> simp

theorem calls (h : g.Emptied cleared) : cleared.calls = g.calls := by
  rcases h with rfl | rfl <;> simp

end Emptied

/-- All that `enqueueInner` can do: nothing once closed, drop the unit while
waiting, take it in on an emptied queue, drop it with the queue and wait, or
append it where there is room. A delta frame reaches an emptied queue only where
nothing was lost or the operation is one that does not keep losses. -/
theorem enqueueInner_cases :
    (g.closed = true ∧ g.enqueueInner unit = g) ∨
    (g.waitingForKeyframe = true ∧ g.enqueueInner unit = g.refuse unit) ∨
    (∃ cleared, g.Emptied cleared ∧
      (unit.isKeyFrame = true ∨ g.Idle ∨
        ¬ KeepsLoss g (.enqueue unit.bytes unit.isKeyFrame
          unit.presentationTimeUs unit.enqueuedAt)) ∧
      g.enqueueInner unit = ({ cleared with waitingForKeyframe := false } : Inner).push unit) ∨
    (∃ cleared, g.Emptied cleared ∧
      g.enqueueInner unit = { cleared.refuse unit with waitingForKeyframe := true }) ∨
    (g.waitingForKeyframe = false ∧ g.overflows unit.bytes.length = false ∧
      g.enqueueInner unit = g.push unit) := by
  unfold enqueueInner
  split
  case isTrue closed => exact Or.inl ⟨closed, rfl⟩
  case isFalse isOpen =>
  refine Or.inr ?_
  split
  case isTrue waiting =>
    split
    case isTrue => exact Or.inl ⟨waiting, rfl⟩
    case isFalse key =>
      have hkey : unit.isKeyFrame = true := by simpa using key
      exact Or.inr (Or.inl ⟨_, g.emptied_dropCurrentOnWait, Or.inl hkey, rfl⟩)
  case isFalse running =>
  have hrunning : g.waitingForKeyframe = false := by simpa using running
  refine Or.inr ?_
  split
  case isTrue reset =>
    have hkey : unit.isKeyFrame = true := by simp_all
    exact Or.inl ⟨_, Or.inr rfl, Or.inl hkey, rfl⟩
  case isFalse =>
  split
  case isTrue latest =>
    refine Or.inl ⟨g.clearQueue, Or.inl rfl, ?_, ?_⟩
    · by_cases key : unit.isKeyFrame = true
      · exact Or.inl key
      · exact Or.inr (Or.inr (by simp_all [KeepsLoss]))
    · rw [show ({ g.clearQueue with waitingForKeyframe := false } : Inner) =
        g.clearQueue by rw [← hrunning]; rfl]
  case isFalse =>
  split
  case isTrue full =>
    dsimp only
    split
    case isTrue taken =>
      refine Or.inl ⟨_, g.emptied_dropCurrentOnWait, ?_, rfl⟩
      by_cases key : unit.isKeyFrame = true
      · exact Or.inl key
      · by_cases idle : g.queue = [] ∧ g.current = none
        · exact Or.inr (Or.inl ⟨hrunning, idle⟩)
        · rw [dropCurrentOnWait_current] at taken
          exact Or.inr (Or.inr (by simp_all [KeepsLoss]; grind))
    case isFalse =>
      exact Or.inr (Or.inl ⟨_, g.emptied_dropCurrentOnWait, rfl⟩)
  case isFalse room => exact Or.inr (Or.inr ⟨hrunning, by simpa using room, rfl⟩)

end Inner

/-- What holds of the queue at all times: a waiting queue is empty, and the
units in it are numbered in the order of their calls. -/
structure Ordered (g : Inner) : Prop where
  waiting_empty : g.waitingForKeyframe = true → g.queue = []
  sorted : (g.current.toList ++ g.queue).Pairwise (·.seq < ·.seq)
  bounded : ∀ unit ∈ g.current.toList ++ g.queue, unit.seq < g.calls

namespace Ordered

variable {g : Inner}

theorem new (cfg : FrameQueueConfig) : Ordered (Inner.new cfg) := by
  constructor <;> simp [Inner.new]

/-- Emptying the queue, and possibly the decoder's place, keeps the order,
whatever becomes of the waiting flag. -/
private theorem emptied {g' : Inner} (h : Ordered g) (hqueue : g'.queue = [])
    (hcurrent : g'.current = g.current ∨ g'.current = none)
    (hcalls : g.calls ≤ g'.calls) : Ordered g' := by
  refine ⟨fun _ => hqueue, ?_, ?_⟩
  · rw [hqueue, List.append_nil]
    cases g'.current <;> simp
  · intro unit member
    rw [hqueue, List.append_nil] at member
    rcases hcurrent with same | gone
    · rw [same] at member
      have := h.bounded unit (List.mem_append_left _ member)
      omega
    · simp [gone] at member

/-- The unit of the present call is younger than all that the queue holds. -/
private theorem push {unit : QueuedUnit} (h : Ordered g)
    (hseq : ∀ old ∈ g.current.toList ++ g.queue, old.seq < unit.seq)
    (hcalls : unit.seq < g.calls) (hopen : g.waitingForKeyframe = false) :
    Ordered (g.push unit) := by
  refine ⟨by simp [hopen], ?_, ?_⟩
  · rw [Inner.push_current, Inner.push_queue, ← List.append_assoc]
    refine List.pairwise_append.mpr ⟨h.sorted, List.pairwise_singleton _ _, ?_⟩
    intro old hold new hnew
    rw [List.mem_singleton.mp hnew]
    exact hseq old hold
  · intro member hmember
    rw [Inner.push_current, Inner.push_queue, ← List.append_assoc] at hmember
    rcases List.mem_append.mp hmember with old | new
    · exact h.bounded member old
    · rw [List.mem_singleton.mp new]
      exact hcalls

private theorem enqueueInner {unit : QueuedUnit} (h : Ordered g)
    (hseq : ∀ old ∈ g.current.toList ++ g.queue, old.seq < unit.seq)
    (hcalls : unit.seq < g.calls) : Ordered (g.enqueueInner unit) := by
  rcases g.enqueueInner_cases unit with ⟨_, same⟩ | ⟨_, refused⟩ |
    ⟨cleared, hempty, _, taken⟩ | ⟨cleared, hempty, lost⟩ | ⟨running, _, pushed⟩
  · rw [same]
    exact h
  · rw [refused]
    exact ⟨h.waiting_empty, h.sorted, h.bounded⟩
  · rw [taken]
    refine push (emptied h hempty.queue hempty.current (Nat.le_of_eq hempty.calls.symm)) ?_
      (hempty.calls.symm ▸ hcalls) rfl
    intro old hold
    rw [hempty.queue, List.append_nil] at hold
    rcases hempty.current with same | gone
    · exact hseq old (List.mem_append_left _ (same ▸ hold))
    · simp [gone] at hold
  · rw [lost]
    exact emptied h hempty.queue hempty.current (Nat.le_of_eq hempty.calls.symm)
  · rw [pushed]
    exact push h hseq hcalls running

theorem advance (h : Ordered g) : Ordered g.advance := by
  unfold Inner.advance
  split
  · next unit rest hcurrent hqueue =>
      have hsorted := h.sorted
      have hbounded := h.bounded
      rw [hcurrent, hqueue] at hsorted hbounded
      refine ⟨?_, hsorted, hbounded⟩
      intro waiting
      have := h.waiting_empty waiting
      simp [hqueue] at this
  · exact h

private theorem taken (h : Ordered g) (log : List Event) :
    Ordered { g with current := none, log := log } := by
  refine ⟨h.waiting_empty, (List.pairwise_append.mp h.sorted).2.1, ?_⟩
  intro unit member
  exact h.bounded unit (List.mem_append_right _ member)

theorem step (h : Ordered g) (op : Op) : Ordered (machine.step g op).1 := by
  cases op with
  | enqueue bytes key pts now =>
      refine enqueueInner ?_ h.bounded (Nat.lt_succ_self _)
      exact ⟨h.waiting_empty, h.sorted,
        fun unit member => Nat.lt_succ_of_lt (h.bounded unit member)⟩
  | dequeuePass cancel now =>
      change Ordered (g.dequeuePass cancel now).1
      unfold Inner.dequeuePass
      split
      · exact h
      dsimp only
      split
      · split
        · exact h.advance
        · exact h.advance.taken _
      · exact h.advance
  | setJitterDelay delay => exact ⟨h.waiting_empty, h.sorted, h.bounded⟩
  | waitForKeyframe =>
      change Ordered g.waitForKeyframe
      unfold Inner.waitForKeyframe
      split
      · exact h
      · have hempty := g.emptied_dropCurrentOnWait
        exact emptied h hempty.queue hempty.current (Nat.le_of_eq hempty.calls.symm)
  | flush wait =>
      exact emptied h (by simp [machine, Inner.flush]) (Or.inr (by simp [machine, Inner.flush]))
        (by simp [machine, Inner.flush])
  | close =>
      exact emptied h (by simp [machine, Inner.close]) (Or.inr (by simp [machine, Inner.close]))
        (by simp [machine, Inner.close])

theorem run (cfg : FrameQueueConfig) (ops : List Op) : Ordered (machine.run (Inner.new cfg) ops) :=
  machine.invariant (C := fun _ _ => True) (fun _ op h _ => h.step op)
    (Ordered.new cfg) (machine.along_of_forall (fun _ _ => trivial) _ _)

end Ordered

/-- Every loss of these events that a key frame has not cleared yet is younger
than the delta frame in the decoder's place. -/
def CurrentSafe (g : Inner) (recent : List Event) : Prop :=
  ∀ (before later : List Event) (lost : QueuedUnit),
    recent = before ++ .dropped lost :: later →
    Cleared later ∨ ∀ unit, g.current = some unit → unit.isKeyFrame = true ∨ unit.seq < lost.seq

/-- Every loss of these events that a key frame has not cleared yet either has
the queue refuse delta frames, or has a key frame that was taken in after it
next in line. -/
def Awaited (g : Inner) (recent : List Event) : Prop :=
  ∀ (before later : List Event) (lost : QueuedUnit),
    recent = before ++ .dropped lost :: later →
    Cleared later ∨ g.waitingForKeyframe = true ∨ g.closed = true ∨
      ∃ key : QueuedUnit, key.isKeyFrame = true ∧ .enqueued key ∈ later ∧
        (g.current = some key ∨ g.queue.head? = some key)

/-- No event since `base` has let a delta frame over a loss. -/
def SafeSince (base : List Event) (g : Inner) : Prop :=
  ∃ recent, g.log = base ++ recent ∧ LossSafe recent ∧ CurrentSafe g recent

/-- No event since `base` has, and the queue will not either. -/
def RepairedSince (base : List Event) (g : Inner) : Prop :=
  ∃ recent, g.log = base ++ recent ∧ LossSafe recent ∧ CurrentSafe g recent ∧ Awaited g recent

private theorem Cleared.mono {events more : List Event} (h : Cleared events)
    (hsub : ∀ event ∈ events, event ∈ more) : Cleared more := by
  obtain ⟨key, hkey, hin, hout⟩ := h
  exact ⟨key, hkey, hsub _ hin, hsub _ hout⟩

/-- An event among old events and some new ones is one of either. -/
private theorem split_event {recent more before later : List Event}
    {event : Event} (h : recent ++ more = before ++ event :: later) :
    (∃ rest, recent = before ++ event :: rest ∧ later = rest ++ more) ∨ event ∈ more := by
  rcases List.append_eq_append_iff.mp h with ⟨mid, _, hmore⟩ | ⟨mid, hrecent, htail⟩
  · exact Or.inr (hmore ▸ by simp)
  · cases mid with
    | nil =>
        rw [List.nil_append] at htail
        exact Or.inr (htail ▸ by simp)
    | cons first rest =>
        rw [List.cons_append, List.cons.injEq] at htail
        exact Or.inl ⟨rest, htail.1 ▸ hrecent, htail.2⟩

/-- New events that return nothing cannot break loss safety. -/
private theorem LossSafe.append {recent more : List Event}
    (h : LossSafe recent) (hmore : ∀ unit, .returned unit ∉ more) :
    LossSafe (recent ++ more) := by
  intro before between after lost unit split
  rw [← List.cons_append, ← List.append_assoc] at split
  rcases split_event split with ⟨rest, hrecent, _⟩ | hreturn
  · rw [List.append_assoc, List.cons_append] at hrecent
    exact h before between rest lost unit hrecent
  · exact absurd hreturn (hmore unit)

/-- Returning the unit in the decoder's place relies on `CurrentSafe`. -/
private theorem LossSafe.returned {g : Inner} {recent : List Event}
    {unit : QueuedUnit} (h : LossSafe recent) (hsafe : CurrentSafe g recent)
    (hcurrent : g.current = some unit) :
    LossSafe (recent ++ [.returned unit]) := by
  intro before between after lost last split key order
  rw [← List.cons_append, ← List.append_assoc] at split
  rcases List.eq_nil_or_concat after with rfl | ⟨earlier, final, rfl⟩
  · obtain ⟨hrecent, hlast⟩ := List.append_inj' split rfl
    obtain rfl : unit = last := by simpa using hlast
    rcases hsafe before between lost hrecent with cleared | safe
    · exact cleared
    · rcases safe unit hcurrent with hkey | younger
      · simp [hkey] at key
      · omega
  · rw [List.concat_eq_append, ← List.cons_append, ← List.append_assoc] at split
    obtain ⟨hrecent, _⟩ := List.append_inj' split rfl
    rw [List.append_assoc, List.cons_append] at hrecent
    exact h before between earlier lost last hrecent key order

/-- New losses must be younger than the unit in the decoder's place. -/
private theorem CurrentSafe.append {g g' : Inner} {recent more : List Event}
    (h : CurrentSafe g recent)
    (hcurrent : g'.current = g.current ∨ g'.current = none)
    (hmore : ∀ lost, .dropped lost ∈ more → ∀ unit, g'.current = some unit → unit.seq < lost.seq) :
    CurrentSafe g' (recent ++ more) := by
  intro before later lost split
  rcases split_event split with ⟨rest, hrecent, rfl⟩ | hdrop
  · rcases h before rest lost hrecent with cleared | safe
    · exact Or.inl (cleared.mono (fun _ member => List.mem_append_left _ member))
    · refine Or.inr fun unit hunit => ?_
      rcases hcurrent with same | gone
      · exact safe unit (same ▸ hunit)
      · simp [gone] at hunit
  · exact Or.inr fun unit hunit => Or.inr (hmore lost hdrop unit hunit)

namespace SafeSince

variable {base : List Event} {g : Inner}

variable (h : SafeSince base g)

include h

/-- The general step of a loss: some events that return nothing, and a
decoder's place that is kept or emptied. -/
private theorem append {g' : Inner} (more : List Event)
    (hlog : g'.log = g.log ++ more) (hreturn : ∀ unit, .returned unit ∉ more)
    (hcurrent : g'.current = g.current ∨ g'.current = none)
    (hmore : ∀ lost, .dropped lost ∈ more → ∀ unit, g'.current = some unit →
      unit.seq < lost.seq) : SafeSince base g' := by
  obtain ⟨recent, hrecent, hsafe, hplace⟩ := h
  refine ⟨recent ++ more, ?_, hsafe.append hreturn, hplace.append hcurrent hmore⟩
  rw [hlog, hrecent, List.append_assoc]

theorem clearQueue (hordered : Ordered g) : SafeSince base g.clearQueue := by
  refine h.append (g.queue.map .dropped) rfl (by simp) (Or.inl rfl) ?_
  intro lost hlost unit hunit
  have hin : lost ∈ g.queue := by simpa using hlost
  exact (List.pairwise_append.mp hordered.sorted).2.2 unit (by simpa using hunit) lost hin

theorem dropCurrent : SafeSince base g.dropCurrent := by
  refine h.append _ g.dropCurrent_log (by simp) (Or.inr g.dropCurrent_current) ?_
  simp

theorem emptied {cleared : Inner} (hordered : Ordered g)
    (hempty : g.Emptied cleared) : SafeSince base cleared := by
  rcases hempty with rfl | rfl
  · exact h.clearQueue hordered
  · exact (h.clearQueue hordered).dropCurrent

theorem refuse {unit : QueuedUnit} (hseq : ∀ old, g.current = some old → old.seq < unit.seq) :
    SafeSince base (g.refuse unit) := by
  refine h.append [.dropped unit] rfl (by simp) (Or.inl rfl) ?_
  intro lost hlost old hold
  obtain rfl : lost = unit := by simpa using hlost
  exact hseq old hold

/-- Only the log and the decoder's place matter. -/
theorem congr {g' : Inner} (hlog : g'.log = g.log)
    (hcurrent : g'.current = g.current) : SafeSince base g' :=
  h.append [] (by simp [hlog]) (by simp) (Or.inl hcurrent) (by simp)

theorem waiting (hwait : g.waitingForKeyframe = true) : RepairedSince base g := by
  obtain ⟨recent, hrecent, hsafe, hplace⟩ := h
  exact ⟨recent, hrecent, hsafe, hplace, fun _ _ _ _ => Or.inr (Or.inl hwait)⟩

theorem closed (hclosed : g.closed = true) : RepairedSince base g := by
  obtain ⟨recent, hrecent, hsafe, hplace⟩ := h
  exact ⟨recent, hrecent, hsafe, hplace, fun _ _ _ _ => Or.inr (Or.inr (Or.inl hclosed))⟩

/-- A key frame on an empty queue repairs every loss before it. -/
theorem pushKey {unit : QueuedUnit} (hkey : unit.isKeyFrame = true) (hempty : g.queue = []) :
    RepairedSince base (g.push unit) := by
  obtain ⟨recent, hrecent, hsafe, hplace⟩ := h
  refine ⟨recent ++ [.enqueued unit], by simp [hrecent],
    hsafe.append (by simp), hplace.append (Or.inl rfl) (by simp), ?_⟩
  intro before later lost split
  rcases split_event split with ⟨rest, _, rfl⟩ | hdrop
  · exact Or.inr (Or.inr (Or.inr ⟨unit, hkey, by simp, Or.inr (by simp [hempty])⟩))
  · simp at hdrop

end SafeSince

namespace RepairedSince

variable {base : List Event} {g : Inner}

theorem safe (h : RepairedSince base g) : SafeSince base g := by
  obtain ⟨recent, hrecent, hsafe, hplace, _⟩ := h
  exact ⟨recent, hrecent, hsafe, hplace⟩

theorem refl (g : Inner) : RepairedSince g.log g := by
  refine ⟨[], by simp, ?_, ?_, ?_⟩
  · intro before between after lost unit split
    simp at split
  · intro before later lost split
    simp at split
  · intro before later lost split
    simp at split

/-- A unit appended behind whatever is next in line changes nothing. -/
theorem push (unit : QueuedUnit) (h : RepairedSince base g) : RepairedSince base (g.push unit) := by
  obtain ⟨recent, hrecent, hsafe, hplace, hawait⟩ := h
  refine ⟨recent ++ [.enqueued unit], by simp [hrecent],
    hsafe.append (by simp), hplace.append (Or.inl rfl) (by simp), ?_⟩
  intro before later lost split
  rcases split_event split with ⟨rest, hold, rfl⟩ | hdrop
  · rcases hawait before rest lost hold with cleared | waiting | closed | ⟨key, hkey, hin, hnext⟩
    · exact Or.inl (cleared.mono (fun _ member => List.mem_append_left _ member))
    · exact Or.inr (Or.inl waiting)
    · exact Or.inr (Or.inr (Or.inl closed))
    · refine Or.inr (Or.inr (Or.inr ⟨key, hkey, List.mem_append_left _ hin, ?_⟩))
      rcases hnext with current | head
      · exact Or.inl current
      · exact Or.inr (by simp [head])
  · simp at hdrop

/-- Only the log, the two places for units and the two flags matter. -/
theorem congr {g' : Inner} (h : RepairedSince base g) (hlog : g'.log = g.log)
    (hcurrent : g'.current = g.current) (hqueue : g'.queue = g.queue)
    (hwait : g'.waitingForKeyframe = g.waitingForKeyframe)
    (hclosed : g'.closed = g.closed) : RepairedSince base g' := by
  obtain ⟨recent, hrecent, hsafe, hplace, hawait⟩ := h
  refine ⟨recent, by rw [hlog, hrecent], hsafe, ?_, ?_⟩
  · simpa only [CurrentSafe, hcurrent] using hplace
  · simpa only [Awaited, hcurrent, hqueue, hwait, hclosed] using hawait

/-- The unit that moves to the decoder's place is the awaited key frame of
every loss that no key frame has cleared yet. -/
theorem advance (h : RepairedSince base g) (hordered : Ordered g)
    (hopen : g.closed = false) : RepairedSince base g.advance := by
  unfold Inner.advance
  split
  · next unit rest hcurrent hqueue =>
      obtain ⟨recent, hrecent, hsafe, hplace, hawait⟩ := h
      have hnext : ∀ (before later : List Event) (lost : QueuedUnit),
          recent = before ++ .dropped lost :: later →
          Cleared later ∨ (unit.isKeyFrame = true ∧ .enqueued unit ∈ later) := by
        intro before later lost split
        rcases hawait before later lost split with cleared | waiting | closed |
          ⟨key, hkey, hin, current | head⟩
        · exact Or.inl cleared
        · have := hordered.waiting_empty waiting
          simp [hqueue] at this
        · simp [hopen] at closed
        · simp [hcurrent] at current
        · obtain rfl : unit = key := by simpa [hqueue] using head
          exact Or.inr ⟨hkey, hin⟩
      refine ⟨recent, hrecent, hsafe, ?_, ?_⟩
      · intro before later lost split
        rcases hnext before later lost split with cleared | ⟨hkey, _⟩
        · exact Or.inl cleared
        · refine Or.inr fun placed hplaced => Or.inl ?_
          obtain rfl : unit = placed := by simpa using hplaced
          exact hkey
      · intro before later lost split
        rcases hnext before later lost split with cleared | ⟨hkey, hin⟩
        · exact Or.inl cleared
        · exact Or.inr (Or.inr (Or.inr ⟨unit, hkey, hin, Or.inl rfl⟩))
  · exact h

/-- Returning the awaited key frame clears its losses. -/
theorem returned {unit : QueuedUnit} (h : RepairedSince base g) (hcurrent : g.current = some unit) :
    RepairedSince base { g with current := none, log := g.log ++ [.returned unit] } := by
  obtain ⟨recent, hrecent, hsafe, hplace, hawait⟩ := h
  refine ⟨recent ++ [.returned unit], by simp [hrecent],
    hsafe.returned hplace hcurrent,
    hplace.append (Or.inr rfl) (by simp), ?_⟩
  intro before later lost split
  rcases split_event split with ⟨rest, hold, rfl⟩ | hdrop
  · rcases hawait before rest lost hold with cleared | waiting | closed |
      ⟨key, hkey, hin, current | head⟩
    · exact Or.inl (cleared.mono (fun _ member => List.mem_append_left _ member))
    · exact Or.inr (Or.inl waiting)
    · exact Or.inr (Or.inr (Or.inl closed))
    · obtain rfl : unit = key := by simpa [hcurrent] using current
      exact Or.inl ⟨unit, hkey, List.mem_append_left _ hin, by simp⟩
    · exact Or.inr (Or.inr (Or.inr ⟨key, hkey, List.mem_append_left _ hin, Or.inr head⟩))
  · simp at hdrop

/-- An emptied queue that had nothing in it is as it was. -/
private theorem emptied {cleared : Inner} (h : RepairedSince base g)
    (hempty : g.Emptied cleared) (hidle : g.Idle) (wait : Bool)
    (hwait : wait = false) :
    RepairedSince base { cleared with waitingForKeyframe := wait } := by
  obtain ⟨hrunning, hqueue, hcurrent⟩ := hidle
  refine h.congr ?_ ?_ (hempty.queue.trans hqueue.symm) (hwait.trans hrunning.symm) hempty.closed
  · change cleared.log = g.log
    rcases hempty with rfl | rfl
    · simp [hqueue]
    · simp [Inner.dropCurrent_log, hqueue, hcurrent]
  · rcases hempty.current with same | gone
    · exact same
    · exact gone.trans hcurrent.symm

private theorem enqueueInner {unit : QueuedUnit} (h : RepairedSince base g) (hordered : Ordered g)
    (hseq : ∀ old, g.current = some old → old.seq < unit.seq)
    (hkeeps : KeepsLoss g (.enqueue unit.bytes unit.isKeyFrame
      unit.presentationTimeUs unit.enqueuedAt)) :
    RepairedSince base (g.enqueueInner unit) := by
  rcases g.enqueueInner_cases unit with ⟨_, same⟩ | ⟨waiting, refused⟩ |
    ⟨cleared, hempty, reason, taken⟩ | ⟨cleared, hempty, lost⟩ | ⟨_, _, pushed⟩
  · rw [same]
    exact h
  · rw [refused]
    exact (h.safe.refuse hseq).waiting waiting
  · rw [taken]
    rcases reason with key | idle | breaks
    · have hsafe : SafeSince base { cleared with waitingForKeyframe := false } :=
        (h.safe.emptied hordered hempty).congr rfl rfl
      exact hsafe.pushKey key hempty.queue
    · exact (h.emptied hempty idle false rfl).push unit
    · exact absurd hkeeps breaks
  · rw [lost]
    have hsafe : SafeSince base (cleared.refuse unit) := by
      refine (h.safe.emptied hordered hempty).refuse ?_
      intro old hold
      rcases hempty.current with same | gone
      · exact hseq old (same ▸ hold)
      · simp [gone] at hold
    exact SafeSince.waiting (hsafe.congr rfl rfl) rfl
  · rw [pushed]
    exact h.push unit

theorem step (h : RepairedSince base g) (hordered : Ordered g) (op : Op)
    (hkeeps : KeepsLoss g op) : RepairedSince base (machine.step g op).1 := by
  cases op with
  | enqueue bytes key pts now =>
      let numbered : Inner := { g with calls := g.calls + 1 }
      have hnumbered : Ordered numbered := ⟨hordered.waiting_empty,
        hordered.sorted,
        fun unit member => Nat.lt_succ_of_lt (hordered.bounded unit member)⟩
      refine enqueueInner (g := numbered) (h.congr rfl rfl rfl rfl rfl) hnumbered ?_ hkeeps
      intro old hold
      have hplace : g.current = some old := hold
      exact hordered.bounded old (by simp [hplace])
  | dequeuePass cancel now =>
      change RepairedSince base (g.dequeuePass cancel now).1
      unfold Inner.dequeuePass
      split
      · exact h
      next stopped =>
      have hopen : g.closed = false := by simp_all
      have hadvance := h.advance hordered hopen
      dsimp only
      split
      · next unit hcurrent =>
          split
          · exact hadvance
          · exact hadvance.returned hcurrent
      · exact hadvance
  | setJitterDelay delay => exact h.congr rfl rfl rfl rfl rfl
  | waitForKeyframe =>
      change RepairedSince base g.waitForKeyframe
      unfold Inner.waitForKeyframe
      split
      · exact h
      · have hsafe := h.safe.emptied hordered g.emptied_dropCurrentOnWait
        exact SafeSince.waiting (hsafe.congr rfl rfl) rfl
  | flush wait =>
      have hempty : g.Emptied g.clearQueue.dropCurrent := Or.inr rfl
      cases wait with
      | true =>
          have hsafe := h.safe.emptied hordered hempty
          exact SafeSince.waiting (hsafe.congr rfl rfl) rfl
      | false =>
          rcases hkeeps with impossible | idle
          · simp at impossible
          · exact h.emptied hempty idle false rfl
  | close =>
      have hclosed : SafeSince base { g with closed := true } := h.safe.congr rfl rfl
      have hordered' : Ordered { g with closed := true } :=
        ⟨hordered.waiting_empty, hordered.sorted, hordered.bounded⟩
      have hempty : ({ g with closed := true } : Inner).Emptied g.close := Or.inr rfl
      exact (hclosed.emptied hordered' hempty).closed hempty.closed

end RepairedSince

/-- From any point of a run on, while every operation keeps losses, no delta
frame is returned over a loss from there on that a key frame, taken in after
the loss, has not cleared. What happened before that point is arbitrary. -/
theorem loss_safe_while_kept (cfg : FrameQueueConfig) (before after : List Op)
    (hkeeps : machine.Along KeepsLoss (machine.run (Inner.new cfg) before) after) :
    ∃ recent,
      (machine.run (Inner.new cfg) (before ++ after)).log =
        (machine.run (Inner.new cfg) before).log ++ recent ∧
      LossSafe recent := by
  let start := machine.run (Inner.new cfg) before
  have hinv := machine.invariant
    (I := fun g => Ordered g ∧ RepairedSince start.log g)
    (fun g op h keeps => ⟨h.1.step op, h.2.step h.1 op keeps⟩)
    ⟨Ordered.run cfg before, RepairedSince.refl start⟩ hkeeps
  obtain ⟨recent, hrecent, hsafe, _⟩ := hinv.2
  rw [machine.run_append]
  exact ⟨recent, hrecent, hsafe⟩

private def delta (n : Nat) : QueuedUnit := ⟨[], false, 0, 0, n⟩

/-- Media mode repairs a loss: the delta frame of the third call is refused,
and the one of the fifth call follows the key frame of the fourth. -/
theorem loss_safe_while_kept_cinema :
    let ops : List Op := [.enqueue [] false 0 0, .waitForKeyframe,
      .enqueue [] false 0 0, .enqueue [] true 0 0, .enqueue [] false 0 0,
      .dequeuePass false 16000000, .dequeuePass false 16000000]
    machine.Along KeepsLoss (machine.run (Inner.new .cinema) []) ops ∧
    ∃ recent,
      (machine.run (Inner.new .cinema) ([] ++ ops)).log =
        (machine.run (Inner.new .cinema) []).log ++ recent ∧
      LossSafe recent := by
  intro ops
  have hkeeps : machine.Along KeepsLoss (machine.run (Inner.new .cinema) []) ops := by
    simp only [ops, Machine.along_cons, Machine.along_nil, Machine.run_nil]
    decide
  exact ⟨hkeeps, loss_safe_while_kept .cinema [] ops hkeeps⟩

/-- Game mode prefers the newest unit: of two queued delta frames the first is
dropped and the second returned, with no key frame between them. -/
theorem prefer_latest_skips_loss :
    ¬ ∀ (cfg : FrameQueueConfig) (ops : List Op),
      LossSafe (machine.run (Inner.new cfg) ops).log := by
  intro halways
  have hsafe := halways .default [.enqueue [] false 0 0, .enqueue [] false 0 0,
    .dequeuePass false 0]
  obtain ⟨key, _, hin, _⟩ := hsafe [.enqueued (delta 0)] [.enqueued (delta 1)] []
    (delta 0) (delta 1) rfl rfl (by decide)
  simp only [List.mem_singleton, Event.enqueued.injEq] at hin
  subst hin
  contradiction

end EvertyDesk.FrameQueue
