import EvertyDesk.Lib.Machine

/-!
The client's queue of video units between the reassembler and the decoder.
Every operation runs under the queue's lock, so an interleaving of threads is a
list of operations; a blocking `dequeue` is the list of its loop passes, one
for each time it holds the lock.

Two pieces of ghost state name units and record what happened to them: the
number of `enqueue` calls so far, and the log of events. No modelled decision
reads them. Durations and instants are natural numbers of one clock unit.
-/

namespace EvertyDesk.FrameQueue

structure QueuedUnit where
  bytes : List UInt8
  isKeyFrame : Bool
  presentationTimeUs : Nat
  enqueuedAt : Nat
  /-- Ghost: how many `enqueue` calls came before this unit's own. -/
  seq : Nat
deriving DecidableEq, Repr

structure QueueStats where
  queuedUnits : Nat
  queuedBytes : Nat
  droppedUnits : Nat
  waitingForKeyframe : Bool
deriving DecidableEq, Repr

structure FrameQueueConfig where
  maxQueuedUnits : Nat
  maxQueuedBytes : Nat
  hardResetOnKeyframe : Bool
  preferLatest : Bool
  dropCurrentOnWait : Bool
  initialJitterDelay : Nat
deriving DecidableEq, Repr

/-- Game mode: newest frame first, no delay. -/
def FrameQueueConfig.default : FrameQueueConfig where
  maxQueuedUnits := 2
  maxQueuedBytes := 512 * 1024
  hardResetOnKeyframe := false
  preferLatest := true
  dropCurrentOnWait := true
  initialJitterDelay := 0

/-- Media mode: smoothness before delay. The jitter delay is 16 ms. -/
def FrameQueueConfig.cinema : FrameQueueConfig where
  maxQueuedUnits := 4
  maxQueuedBytes := 2 * 1024 * 1024
  hardResetOnKeyframe := false
  preferLatest := false
  dropCurrentOnWait := false
  initialJitterDelay := 16000000

/-- What happens to one unit. A unit that arrives while the queue waits for a
key frame is dropped without having been taken in. -/
inductive Event where
  | enqueued (unit : QueuedUnit)
  | dropped (unit : QueuedUnit)
  | returned (unit : QueuedUnit)
deriving DecidableEq, Repr

structure Inner where
  queue : List QueuedUnit
  queuedBytes : Nat
  current : Option QueuedUnit
  waitingForKeyframe : Bool
  droppedUnits : Nat
  closed : Bool
  jitterDelay : Nat
  cfg : FrameQueueConfig
  /-- Ghost: the number of `enqueue` calls so far. -/
  calls : Nat
  /-- Ghost: everything that happened, oldest first. -/
  log : List Event
deriving DecidableEq, Repr

namespace Inner

def new (cfg : FrameQueueConfig) : Inner where
  queue := []
  queuedBytes := 0
  current := none
  waitingForKeyframe := false
  droppedUnits := 0
  closed := false
  jitterDelay := cfg.initialJitterDelay
  cfg := cfg
  calls := 0
  log := []

def stats (g : Inner) : QueueStats where
  queuedUnits := g.queue.length + if g.current.isSome then 1 else 0
  queuedBytes := g.queuedBytes + (g.current.map (·.bytes.length)).getD 0
  droppedUnits := g.droppedUnits
  waitingForKeyframe := g.waitingForKeyframe

def clearQueue (g : Inner) : Inner :=
  { g with
    droppedUnits := g.droppedUnits + g.queue.length
    queue := []
    queuedBytes := 0
    log := g.log ++ g.queue.map .dropped }

def dropCurrent (g : Inner) : Inner :=
  match g.current with
  | some unit =>
      { g with
        current := none
        droppedUnits := g.droppedUnits + 1
        log := g.log ++ [.dropped unit] }
  | none => g

def push (g : Inner) (unit : QueuedUnit) : Inner :=
  { g with
    queue := g.queue ++ [unit]
    queuedBytes := g.queuedBytes + unit.bytes.length
    log := g.log ++ [.enqueued unit] }

/-- The unit of this call is counted as dropped without being taken in. -/
def refuse (g : Inner) (unit : QueuedUnit) : Inner :=
  { g with
    droppedUnits := g.droppedUnits + 1
    log := g.log ++ [.dropped unit] }

/-- `drop_current` where the configuration asks for it. -/
def dropCurrentOnWait (g : Inner) : Inner :=
  if g.cfg.dropCurrentOnWait then g.dropCurrent else g

/-- Does one more unit of this size overflow the queue? -/
def overflows (g : Inner) (bytes : Nat) : Bool :=
  decide (g.queue.length ≥ g.cfg.maxQueuedUnits) ||
    decide (g.queuedBytes + bytes > g.cfg.maxQueuedBytes)

def enqueueInner (g : Inner) (unit : QueuedUnit) : Inner :=
  if g.closed then g
  else if g.waitingForKeyframe then
    if !unit.isKeyFrame then g.refuse unit
    else
      { g.clearQueue.dropCurrentOnWait with waitingForKeyframe := false }.push unit
  else if g.cfg.hardResetOnKeyframe && unit.isKeyFrame &&
      (g.current.isSome || !g.queue.isEmpty) then
    { g.clearQueue.dropCurrent with waitingForKeyframe := false }.push unit
  else if g.cfg.preferLatest && !g.queue.isEmpty then
    g.clearQueue.push unit
  else if g.overflows unit.bytes.length then
    let cleared := g.clearQueue.dropCurrentOnWait
    if unit.isKeyFrame || cleared.current.isNone then
      { cleared with waitingForKeyframe := false }.push unit
    else
      { cleared.refuse unit with waitingForKeyframe := true }
  else g.push unit

/-- `enqueue`: the call is numbered, then handled under the lock. -/
def enqueue (g : Inner) (bytes : List UInt8) (isKeyFrame : Bool)
    (presentationTimeUs now : Nat) : Inner :=
  { g with calls := g.calls + 1 }.enqueueInner
    ⟨bytes, isKeyFrame, presentationTimeUs, now, g.calls⟩

/-- What one pass of the `dequeue` loop ends with. -/
inductive Pass where
  | closed
  | returned (unit : QueuedUnit)
  | wait
deriving DecidableEq, Repr

/-- Move the oldest queued unit to `current` if that place is free. -/
def advance (g : Inner) : Inner :=
  match g.current, g.queue with
  | none, unit :: rest =>
      { g with
        queue := rest
        queuedBytes := g.queuedBytes - unit.bytes.length
        current := some unit }
  | _, _ => g

/-- One pass of the `dequeue` loop while it holds the lock. -/
def dequeuePass (g : Inner) (cancel : Bool) (now : Nat) : Inner × Pass :=
  if g.closed || cancel then (g, .closed)
  else
    let g := g.advance
    match g.current with
    | some unit =>
        if decide (g.jitterDelay > 0) && g.queue.isEmpty &&
            decide (now - unit.enqueuedAt < g.jitterDelay) then
          (g, .wait)
        else
          ({ g with current := none, log := g.log ++ [.returned unit] }, .returned unit)
    | none => (g, .wait)

def setJitterDelay (g : Inner) (delay : Nat) : Inner := { g with jitterDelay := delay }

def waitForKeyframe (g : Inner) : Inner :=
  if g.closed then g
  else { g.clearQueue.dropCurrentOnWait with waitingForKeyframe := true }

def flush (g : Inner) (waitForKeyframe : Bool) : Inner :=
  { g.clearQueue.dropCurrent with waitingForKeyframe := waitForKeyframe }

def close (g : Inner) : Inner := { g with closed := true }.clearQueue.dropCurrent

end Inner

/-- One critical section of one of the queue's users. -/
inductive Op where
  | enqueue (bytes : List UInt8) (isKeyFrame : Bool)
      (presentationTimeUs now : Nat)
  | dequeuePass (cancel : Bool) (now : Nat)
  | setJitterDelay (delay : Nat)
  | waitForKeyframe
  | flush (waitForKeyframe : Bool)
  | close
deriving DecidableEq, Repr

/-- The queue as a machine over its critical sections. Only a `dequeue` pass
has a result. -/
def machine : Machine Inner Op (Option Inner.Pass) where
  step g op :=
    match op with
    | .enqueue bytes key pts now => (g.enqueue bytes key pts now, none)
    | .dequeuePass cancel now =>
        let (next, result) := g.dequeuePass cancel now
        (next, some result)
    | .setJitterDelay delay => (g.setJitterDelay delay, none)
    | .waitForKeyframe => (g.waitForKeyframe, none)
    | .flush wait => (g.flush wait, none)
    | .close => (g.close, none)

end EvertyDesk.FrameQueue
