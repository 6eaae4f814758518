import EvertyDesk.Host.LoginLoop
import Mathlib.Data.List.Nodup

/-!
The endpoint by which the windows on the host reach it: the approval prompt, the session
toolbar, the main window. The listener accepts one connection, reads its token, and then
its commands to its end, before it accepts the next one.

The listener of the agent process and that of a host in the same process are alike in
this.
-/

namespace EvertyDesk.Host

/-- A line that has been read, if it is text. -/
abbrev Line := Option String

/-- What a client has sent and the listener has not read. -/
structure CommandConnection where
  number : Nat
  lines : List Line
  /-- What has come after the last line. -/
  unfinished : Line
  /-- The client has closed it, or it is broken. -/
  closed : Bool
deriving DecidableEq, Repr

inductive ReadLine where
  | blocks
  | endOfStream
  | line (line : Line) (rest : CommandConnection)

namespace CommandConnection

variable (c : CommandConnection)

def readLine : ReadLine :=
  match c.lines with
  | line :: lines => .line line { c with lines }
  | [] =>
      if c.closed then
        if c.unfinished = some "" then .endOfStream
        else .line c.unfinished { c with unfinished := some "" }
      else .blocks

def sendLine (text : Line) : CommandConnection :=
  if c.closed then c
  else
    let line := do return (← c.unfinished) ++ (← text)
    { c with lines := c.lines ++ [line], unfinished := some "" }

def sendPart (text : Line) : CommandConnection :=
  if c.closed then c
  else { c with unfinished := do return (← c.unfinished) ++ (← text) }

def close : CommandConnection := { c with closed := true }

/-- A connection that breaks may lose what has not been read. -/
def abort : CommandConnection := { c with lines := [], unfinished := some "", closed := true }

end CommandConnection

/-- What the listener reads from the connection that it has accepted. -/
inductive ServingStage where
  | firstLine
  | commands
deriving DecidableEq, Repr

structure CommandListener (Cmd : Type) where
  serving : Option (ServingStage × CommandConnection)
  backlog : List CommandConnection
  /-- The commands that have been handed to the host, with their connections. -/
  forwarded : List (Nat × Cmd)
  /-- How many connections there have been. -/
  connections : Nat

inductive CommandListenerInput where
  | connect
  | sendLine (number : Nat) (text : Line)
  | sendPart (number : Nat) (text : Line)
  | close (number : Nat)
  | abort (number : Nat)
  /-- The listener goes on, if it is not blocked. -/
  | listen

namespace CommandListener

variable {Cmd : Type} (token : List Char) (parse : List Char → Option Cmd)

def start : CommandListener Cmd where
  serving := none
  backlog := []
  forwarded := []
  connections := 0

variable (s : CommandListener Cmd)

def isToken (line : Line) : Bool :=
  match line with
  | some text => decide (trim text.toList = token)
  | none => false

def parseCommand (line : Line) : Option Cmd := line.bind fun text => parse (trim text.toList)

def listen : CommandListener Cmd :=
  match s.serving with
  | none =>
      match s.backlog with
      | [] => s
      | c :: backlog => { s with serving := some (.firstLine, c), backlog }
  | some (stage, c) =>
      match c.readLine with
      | .blocks => s
      | .endOfStream => { s with serving := none }
      | .line line rest =>
          match stage with
          | .firstLine =>
              if isToken token line then { s with serving := some (.commands, rest) }
              else { s with serving := none }
          | .commands =>
              if line.isNone then { s with serving := none }
              else
                { s with
                  serving := some (.commands, rest)
                  forwarded := s.forwarded ++
                    ((parseCommand parse line).map fun cmd => (c.number, cmd)).toList }

/-- A client does something with its connection. -/
def onConnection (number : Nat) (f : CommandConnection → CommandConnection) : CommandListener Cmd :=
  let change (c : CommandConnection) := if c.number = number then f c else c
  { s with
    serving := s.serving.map fun served => (served.1, change served.2)
    backlog := s.backlog.map change }

def step : CommandListenerInput → CommandListener Cmd × Unit
  | .connect =>
      ({ s with
          backlog := s.backlog ++ [⟨s.connections, [], some "", false⟩]
          connections := s.connections + 1 }, ())
  | .sendLine number text => (s.onConnection number (·.sendLine text), ())
  | .sendPart number text => (s.onConnection number (·.sendPart text), ())
  | .close number => (s.onConnection number (·.close), ())
  | .abort number => (s.onConnection number (·.abort), ())
  | .listen => (s.listen token parse, ())

end CommandListener

def commandListener {Cmd : Type} (token : List Char) (parse : List Char → Option Cmd) :
    Machine (CommandListener Cmd) CommandListenerInput Unit :=
  ⟨CommandListener.step token parse⟩

/-! What is left to read. -/

namespace CommandConnection

variable {c rest : CommandConnection} {line : Line}

/-- A last line without its end is a line when nothing more will come. -/
def unread (c : CommandConnection) : List Line :=
  c.lines ++ if c.closed ∧ c.unfinished ≠ some "" then [c.unfinished] else []

theorem readLine_blocks (h : c.readLine = .blocks) : c.unread = [] ∧ c.closed = false := by
  unfold readLine at h
  split at h
  · cases h
  next hlines =>
    cases hclosed : c.closed with
    | false => simp [unread, hlines, hclosed]
    | true =>
        rw [hclosed, if_pos rfl] at h
        split at h <;> cases h

theorem readLine_endOfStream (h : c.readLine = .endOfStream) : c.unread = [] ∧ c.closed = true := by
  unfold readLine at h
  split at h
  · cases h
  next hlines =>
    split at h
    next hclosed =>
      split at h
      next hdone => simp [unread, hlines, hclosed, hdone]
      next => cases h
    next => cases h

theorem readLine_line (h : c.readLine = .line line rest) :
    c.unread = line :: rest.unread ∧ rest.closed = c.closed ∧ rest.number = c.number := by
  unfold readLine at h
  split at h
  next first lines hlines =>
    cases h
    exact ⟨by simp [unread, hlines], rfl, rfl⟩
  next hlines =>
    split at h
    next hclosed =>
      split at h
      next => cases h
      next hdone =>
        cases h
        exact ⟨by simp [unread, hlines, hclosed, hdone], rfl, rfl⟩
    next => cases h

end CommandConnection

namespace CommandListener

variable {Cmd : Type} {token : List Char} {parse : List Char → Option Cmd} {s : CommandListener Cmd}

/-- The commands among some lines, and whether they are cut off by bytes that are no
text. -/
def commandsOf (parse : List Char → Option Cmd) : List Line → List Cmd × Bool
  | [] => ([], false)
  | none :: _ => ([], true)
  | some text :: lines =>
      ((parse (trim text.toList)).toList ++ (commandsOf parse lines).1, (commandsOf parse lines).2)

/-- The same for a connection, which is dropped if its first line is not the token. -/
def readsAs (token : List Char) (parse : List Char → Option Cmd) :
    ServingStage → List Line → List Cmd × Bool
  | .commands, lines => commandsOf parse lines
  | .firstLine, [] => ([], false)
  | .firstLine, line :: lines =>
      if isToken token line then commandsOf parse lines else ([], true)

/-- The commands that the connection has sent and that have not been forwarded. -/
def pending (token : List Char) (parse : List Char → Option Cmd)
    (c : ServingStage × CommandConnection) : List Cmd :=
  (readsAs token parse c.1 c.2.unread).1

/-- The listener comes to the end of the connection without another word from it. -/
def Passable (token : List Char) (parse : List Char → Option Cmd)
    (c : ServingStage × CommandConnection) : Prop :=
  (readsAs token parse c.1 c.2.unread).2 = true ∨ c.2.closed = true

/-- The connections that the listener has not come to the end of, in order. -/
def queue (s : CommandListener Cmd) : List (ServingStage × CommandConnection) :=
  s.serving.toList ++ s.backlog.map fun c => (.firstLine, c)

def forwardedFrom (s : CommandListener Cmd) (number : Nat) : List Cmd :=
  (s.forwarded.filter (·.1 = number)).map (·.2)

/-- The listener alone takes some steps. -/
def listens (token : List Char) (parse : List Char → Option Cmd) (n : Nat)
    (s : CommandListener Cmd) : CommandListener Cmd :=
  (commandListener token parse).run s (List.replicate n .listen)

/-- Every command that has come on a connection with the right token can be forwarded by
the listener alone. -/
def Serves (token : List Char) (parse : List Char → Option Cmd) (s : CommandListener Cmd) :
    Prop :=
  ∀ before c after, s.queue = before ++ c :: after → pending token parse c ≠ [] →
    ∃ n, (listens token parse n s).forwardedFrom c.2.number =
      s.forwardedFrom c.2.number ++ pending token parse c

/-- A connection with commands waits behind none that is still open and has sent nothing
to be dropped for. -/
def Unblocked (token : List Char) (parse : List Char → Option Cmd) (s : CommandListener Cmd) :
    Prop :=
  ∀ before c after, s.queue = before ++ c :: after → pending token parse c ≠ [] →
    ∀ earlier ∈ before, Passable token parse earlier

/-- One step of the listener: nothing, a line of the first connection, or its end. -/
inductive Listened (token : List Char) (parse : List Char → Option Cmd)
    (s : CommandListener Cmd) : CommandListener Cmd → Prop
  | quiet {t} (hqueue : t.queue = s.queue) (hforwarded : t.forwarded = s.forwarded)
      (hblocks : ∀ c ∈ s.serving, c.2.readLine = .blocks) : Listened token parse s t
  | read {t} (c rest : ServingStage × CommandConnection) (cmds : List Cmd)
      (hserving : t.serving = some rest) (hbacklog : t.backlog = s.backlog)
      (hbefore : s.serving = some c) (hnumber : rest.2.number = c.2.number)
      (hpassable : Passable token parse rest ↔ Passable token parse c)
      (hpending : pending token parse c = cmds ++ pending token parse rest)
      (hunread : rest.2.unread.length < c.2.unread.length)
      (hforwarded : t.forwarded = s.forwarded ++ cmds.map fun cmd => (c.2.number, cmd)) :
      Listened token parse s t
  | ended {t} (c : ServingStage × CommandConnection) (hserving : t.serving = none)
      (hbacklog : t.backlog = s.backlog) (hbefore : s.serving = some c)
      (hpassable : Passable token parse c) (hpending : pending token parse c = [])
      (hforwarded : t.forwarded = s.forwarded) : Listened token parse s t

variable (token parse) in
theorem listen_cases (s : CommandListener Cmd) : Listened token parse s (s.listen token parse) := by
  cases hserving : s.serving with
  | none =>
      cases hbacklog : s.backlog with
      | nil =>
          have hsame : s.listen token parse = s := by simp [listen, hserving, hbacklog]
          exact .quiet (by rw [hsame]) (by rw [hsame]) (by simp [hserving])
      | cons c backlog =>
          refine .quiet ?_ ?_ (by simp [hserving])
          · simp [listen, hserving, hbacklog, queue]
          · simp [listen, hserving, hbacklog]
  | some served =>
      obtain ⟨stage, c⟩ := served
      cases hread : c.readLine with
      | blocks =>
          have hsame : s.listen token parse = s := by simp [listen, hserving, hread]
          exact .quiet (by rw [hsame]) (by rw [hsame]) (by simp [hserving, hread])
      | endOfStream =>
          obtain ⟨hunread, hclosed⟩ := CommandConnection.readLine_endOfStream hread
          refine .ended (stage, c) ?_ ?_ hserving (.inr hclosed) ?_ ?_
          · simp [listen, hserving, hread]
          · simp [listen, hserving, hread]
          · cases stage <;> simp [pending, readsAs, commandsOf, hunread]
          · simp [listen, hserving, hread]
      | line line rest =>
          obtain ⟨hunread, hclosed, hnumber⟩ := CommandConnection.readLine_line hread
          cases stage with
          | firstLine =>
              cases htoken : isToken token line with
              | false =>
                  refine .ended (.firstLine, c) ?_ ?_ hserving (.inl ?_) ?_ ?_
                  all_goals simp [listen, hserving, hread, htoken, readsAs, hunread, pending]
              | true =>
                  refine .read (.firstLine, c) (.commands, rest) [] ?_ ?_ hserving hnumber ?_ ?_
                    ?_ ?_
                  all_goals simp [listen, hserving, hread, htoken, readsAs, hunread, pending,
                    Passable, hclosed]
          | commands =>
              cases line with
              | none =>
                  refine .ended (.commands, c) ?_ ?_ hserving (.inl ?_) ?_ ?_
                  all_goals simp [listen, hserving, hread, readsAs, commandsOf, hunread, pending]
              | some text =>
                  refine .read (.commands, c) (.commands, rest) (parse (trim text.toList)).toList
                    ?_ ?_ hserving hnumber ?_ ?_ ?_ ?_
                  all_goals simp [listen, hserving, hread, readsAs, commandsOf, hunread, pending,
                    Passable, hclosed, parseCommand]
                  cases parse (trim text.toList) <;> rfl

/-! The listener goes on. -/

theorem listens_add (n k : Nat) (s : CommandListener Cmd) :
    listens token parse (n + k) s = listens token parse k (listens token parse n s) := by
  unfold listens
  rw [List.replicate_add, (commandListener token parse).run_append]

variable (token parse) in
theorem listens_one (s : CommandListener Cmd) :
    listens token parse 1 s = s.listen token parse := rfl

variable (token parse) in
theorem blocked_of_blocks {c : ServingStage × CommandConnection} (h : c.2.readLine = .blocks) :
    pending token parse c = [] ∧ ¬ Passable token parse c := by
  obtain ⟨hunread, hclosed⟩ := CommandConnection.readLine_blocks h
  obtain ⟨stage, c⟩ := c
  cases stage <;> simp_all [pending, Passable, readsAs, commandsOf]

variable (token parse) in
/-- The commands of the connection that is served are forwarded, and if nothing keeps
the listener there it is free for the next one. -/
theorem serve_first {c : ServingStage × CommandConnection} (hserving : s.serving = some c) :
    ∃ n, let t := listens token parse n s
      t.backlog = s.backlog ∧
        t.forwarded = s.forwarded ++ (pending token parse c).map (fun cmd => (c.2.number, cmd)) ∧
        (Passable token parse c → t.serving = none) := by
  induction hlength : c.2.unread.length using Nat.strongRecOn generalizing s c with
  | ind length ih =>
      have hnext := listens_one token parse s
      cases listen_cases token parse s with
      | quiet hqueue hforwarded hblocks =>
          obtain ⟨hpending, hstuck⟩ := blocked_of_blocks token parse (hblocks c hserving)
          refine ⟨0, rfl, ?_, fun hpassable => absurd hpassable hstuck⟩
          rw [hpending]
          exact (List.append_nil _).symm
      | read c' rest cmds hrest hbacklog hbefore hnumber hpassable hpending hunread hforwarded =>
          obtain rfl : c = c' := Option.some.inj (hserving.symm.trans hbefore)
          obtain ⟨n, hbacklog', hforwarded', hfree⟩ := ih _ (hlength ▸ hunread) hrest rfl
          refine ⟨1 + n, ?_⟩
          rw [listens_add, hnext]
          refine ⟨hbacklog'.trans hbacklog, ?_, fun h => hfree (hpassable.mpr h)⟩
          rw [hforwarded', hforwarded, hpending, hnumber, List.map_append, List.append_assoc]
      | ended c' hfree hbacklog hbefore hpassable hpending hforwarded =>
          obtain rfl : c = c' := Option.some.inj (hserving.symm.trans hbefore)
          refine ⟨1, ?_⟩
          rw [hnext]
          exact ⟨hbacklog, by rw [hpending, hforwarded]; exact (List.append_nil _).symm,
            fun _ => hfree⟩

variable (token parse) in
/-- The first connection of the queue is accepted. -/
theorem accept_first {c : ServingStage × CommandConnection}
    {rest : List (ServingStage × CommandConnection)} (hqueue : s.queue = c :: rest) :
    ∃ n, let t := listens token parse n s
      t.serving = some c ∧ t.backlog.map (fun c => (ServingStage.firstLine, c)) = rest ∧
        t.forwarded = s.forwarded := by
  cases hserving : s.serving with
  | some served =>
      rw [queue, hserving, Option.toList_some, List.singleton_append, List.cons.injEq] at hqueue
      exact ⟨0, by rw [← hqueue.1]; exact hserving, hqueue.2, rfl⟩
  | none =>
      rw [queue, hserving, Option.toList_none, List.nil_append] at hqueue
      cases hbacklog : s.backlog with
      | nil => simp [hbacklog] at hqueue
      | cons first backlog =>
          rw [hbacklog, List.map_cons, List.cons.injEq] at hqueue
          refine ⟨1, ?_⟩
          rw [listens_one token parse]
          simp [listen, hserving, hbacklog, hqueue.1, hqueue.2]

/-- Behind connections that the listener comes to the end of, every command is
forwarded. -/
theorem serve_through {before after : List (ServingStage × CommandConnection)}
    {c : ServingStage × CommandConnection} (hqueue : s.queue = before ++ c :: after)
    (hpassable : ∀ earlier ∈ before, Passable token parse earlier) :
    ∃ n, (listens token parse n s).forwarded = s.forwarded ++
      (before ++ [c]).flatMap fun a =>
        (pending token parse a).map fun cmd => (a.2.number, cmd) := by
  induction before generalizing s with
  | nil =>
      obtain ⟨n, hserving, -, hsame⟩ := accept_first token parse hqueue
      obtain ⟨k, -, hforwarded, -⟩ := serve_first token parse hserving
      refine ⟨n + k, ?_⟩
      rw [listens_add, hforwarded, hsame]
      simp
  | cons first before ih =>
      obtain ⟨n, hserving, hbacklog, hsame⟩ := accept_first token parse hqueue
      obtain ⟨k, hkept, hforwarded, hfree⟩ := serve_first token parse hserving
      have hrest : (listens token parse k (listens token parse n s)).queue =
          before ++ c :: after := by
        rw [queue, hfree (hpassable first List.mem_cons_self), hkept, hbacklog]
        rfl
      obtain ⟨l, hlast⟩ := ih hrest fun earlier hearlier =>
        hpassable earlier (List.mem_cons_of_mem _ hearlier)
      refine ⟨n + k + l, ?_⟩
      rw [listens_add, listens_add, hlast, hforwarded, hsame]
      simp

/-! Connections are told apart by their numbers. -/

structure Numbered (s : CommandListener Cmd) : Prop where
  nodup : (s.queue.map (·.2.number)).Nodup
  lt : ∀ c ∈ s.queue, c.2.number < s.connections

theorem start_numbered : (start : CommandListener Cmd).Numbered where
  nodup := by simp [queue, start]
  lt := by simp [queue, start]

theorem listen_connections (s : CommandListener Cmd) :
    (s.listen token parse).connections = s.connections := by
  unfold listen
  split
  · split <;> rfl
  · split
    · rfl
    · rfl
    · split <;> split <;> rfl

variable (token parse) in
/-- The listener leaves the queue shorter or as it is. -/
theorem listen_numbers (s : CommandListener Cmd) :
    (s.listen token parse).queue.map (·.2.number) = s.queue.map (·.2.number) ∨
      (s.listen token parse).queue = s.queue.tail := by
  cases listen_cases token parse s with
  | quiet hqueue hforwarded hblocks => exact .inl (by rw [hqueue])
  | read c rest cmds hserving hbacklog hbefore hnumber hpassable hpending hunread hforwarded =>
      refine .inl ?_
      simp [queue, hserving, hbacklog, hbefore, hnumber]
  | ended c hserving hbacklog hbefore hpassable hpending hforwarded =>
      refine .inr ?_
      simp [queue, hserving, hbacklog, hbefore]

theorem numbered_of_numbers {t : CommandListener Cmd}
    (hnumbers : t.queue.map (·.2.number) = s.queue.map (·.2.number))
    (hconnections : t.connections = s.connections) (h : s.Numbered) : t.Numbered where
  nodup := hnumbers ▸ h.nodup
  lt c hc := by
    have hmember : c.2.number ∈ s.queue.map (·.2.number) := hnumbers ▸ List.mem_map_of_mem hc
    obtain ⟨d, hd, hsame⟩ := List.mem_map.mp hmember
    rw [hconnections, ← hsame]
    exact h.lt d hd

theorem onConnection_numbers (number : Nat) {f : CommandConnection → CommandConnection}
    (hf : ∀ c, (f c).number = c.number) :
    (s.onConnection number f).queue.map (·.2.number) = s.queue.map (·.2.number) := by
  have hchange : ∀ c : CommandConnection,
      (if c.number = number then f c else c).number = c.number := by
    intro c
    split
    · exact hf c
    · rfl
  cases hserving : s.serving with
  | none => simp [queue, onConnection, hserving, hchange]
  | some served => simp [queue, onConnection, hserving, hchange]

theorem Numbered.listen (h : s.Numbered) : (s.listen token parse).Numbered := by
  rcases listen_numbers token parse s with hsame | htail
  · exact numbered_of_numbers hsame (listen_connections s) h
  · constructor
    · rw [htail, List.map_tail]
      exact h.nodup.tail
    · intro c hc
      rw [listen_connections]
      exact h.lt c (List.mem_of_mem_tail (htail ▸ hc))

theorem Numbered.step (h : s.Numbered) (i : CommandListenerInput) :
    (s.step token parse i).1.Numbered := by
  have hkept : ∀ number (f : CommandConnection → CommandConnection),
      (∀ c, (f c).number = c.number) → (s.onConnection number f).Numbered :=
    fun number f hf => numbered_of_numbers (onConnection_numbers number hf) rfl h
  cases i with
  | connect =>
      have hqueue : (s.step token parse .connect).1.queue =
          s.queue ++ [(.firstLine, ⟨s.connections, [], some "", false⟩)] := by
        simp [CommandListener.step, queue]
      constructor
      · rw [hqueue, List.map_append, List.nodup_append]
        refine ⟨h.nodup, by simp, ?_⟩
        simp only [List.mem_map]
        rintro _ ⟨c, hc, rfl⟩ _ ⟨d, hd, rfl⟩
        obtain rfl := List.mem_singleton.mp hd
        exact (h.lt c hc).ne
      · intro c hc
        rw [hqueue] at hc
        rcases List.mem_append.mp hc with hold | hnew
        · exact Nat.lt_succ_of_lt (h.lt c hold)
        · obtain rfl := List.mem_singleton.mp hnew
          exact Nat.lt_succ_self _
  | sendLine number text =>
      refine hkept number (·.sendLine text) fun c => ?_
      unfold CommandConnection.sendLine
      split <;> rfl
  | sendPart number text =>
      refine hkept number (·.sendPart text) fun c => ?_
      unfold CommandConnection.sendPart
      split <;> rfl
  | close number => exact hkept number _ fun _ => rfl
  | abort number => exact hkept number _ fun _ => rfl
  | listen => exact h.listen

theorem run_numbered (is : List CommandListenerInput) :
    ((commandListener token parse).run start is).Numbered :=
  (commandListener token parse).invariant (C := fun _ _ => True) (fun _ i h _ => h.step i)
    start_numbered ((commandListener token parse).along_of_forall (fun _ _ => trivial) _ _)

/-! A connection that keeps the listener. -/

/-- The connection waits behind one that the listener does not come to the end of. -/
def Behind (token : List Char) (parse : List Char → Option Cmd) (s : CommandListener Cmd)
    (number : Nat) : Prop :=
  ∃ before stuck middle c after, s.queue = before ++ stuck :: (middle ++ c :: after) ∧
    ¬ Passable token parse stuck ∧ c.2.number = number

/-- The listener forwards nothing of it, and it stays there. -/
theorem Behind.listen {number : Nat} (h : s.Behind token parse number) (hnumbered : s.Numbered) :
    (s.listen token parse).Behind token parse number ∧
      (s.listen token parse).forwardedFrom number = s.forwardedFrom number := by
  obtain ⟨before, stuck, middle, c, after, hqueue, hstuck, rfl⟩ := h
  cases listen_cases token parse s with
  | quiet hsame hforwarded hblocks =>
      exact ⟨⟨before, stuck, middle, c, after, hsame.trans hqueue, hstuck, rfl⟩,
        by rw [forwardedFrom, hforwarded, forwardedFrom]⟩
  | read first rest cmds hserving hbacklog hbefore hnumber hpassable hpending hunread
      hforwarded =>
      have hold : s.queue = first :: s.backlog.map fun c => (.firstLine, c) := by
        simp [queue, hbefore]
      have hnew : (s.listen token parse).queue =
          rest :: s.backlog.map fun c => (.firstLine, c) := by
        simp [queue, hserving, hbacklog]
      have hdistinct : first.2.number ≠ c.2.number := by
        have hnodup := hnumbered.nodup
        rw [hqueue] at hold hnodup
        cases before with
        | nil =>
            obtain ⟨rfl, -⟩ := List.cons.inj hold
            rintro hsame
            simp [hsame] at hnodup
        | cons d before =>
            obtain ⟨rfl, -⟩ := List.cons.inj hold
            rintro hsame
            simp [hsame] at hnodup
      constructor
      · rw [hqueue] at hold
        cases before with
        | nil =>
            obtain ⟨rfl, htail⟩ := List.cons.inj hold
            exact ⟨[], rest, middle, c, after, by rw [hnew, ← htail]; rfl,
              fun h => hstuck (hpassable.mp h), rfl⟩
        | cons d before =>
            obtain ⟨rfl, htail⟩ := List.cons.inj hold
            exact ⟨rest :: before, stuck, middle, c, after, by rw [hnew, ← htail]; rfl, hstuck, rfl⟩
      · simp [forwardedFrom, hforwarded, List.filter_map, Function.comp_def, hdistinct]
  | ended first hserving hbacklog hbefore hpassable hpending hforwarded =>
      refine ⟨?_, by rw [forwardedFrom, hforwarded, forwardedFrom]⟩
      have hold : s.queue = first :: s.backlog.map fun c => (.firstLine, c) := by
        simp [queue, hbefore]
      have hnew : (s.listen token parse).queue = s.backlog.map fun c => (.firstLine, c) := by
        simp [queue, hserving, hbacklog]
      rw [hqueue] at hold
      cases before with
      | nil =>
          obtain ⟨rfl, -⟩ := List.cons.inj hold
          exact absurd hpassable hstuck
      | cons d before =>
          obtain ⟨rfl, htail⟩ := List.cons.inj hold
          exact ⟨before, stuck, middle, c, after, by rw [hnew, ← htail]; rfl, hstuck, rfl⟩

theorem Behind.listens {number : Nat} (h : s.Behind token parse number)
    (hnumbered : s.Numbered) (n : Nat) :
    (listens token parse n s).forwardedFrom number = s.forwardedFrom number := by
  induction n generalizing s with
  | zero => rfl
  | succ n ih =>
      obtain ⟨hnext, hforwarded⟩ := h.listen hnumbered
      exact (ih hnext hnumbered.listen).trans hforwarded

/-- What other connections have sent is not theirs. -/
theorem forwardedFrom_through {before after : List (ServingStage × CommandConnection)}
    {c : ServingStage × CommandConnection} {t : CommandListener Cmd} (hnumbered : s.Numbered)
    (hqueue : s.queue = before ++ c :: after)
    (hforwarded : t.forwarded = s.forwarded ++ (before ++ [c]).flatMap fun a =>
      (pending token parse a).map fun cmd => (a.2.number, cmd)) :
    t.forwardedFrom c.2.number = s.forwardedFrom c.2.number ++ pending token parse c := by
  have hothers : ∀ a ∈ before, a.2.number ≠ c.2.number := by
    intro a ha hsame
    have hnodup := hnumbered.nodup
    rw [hqueue, List.map_append, List.map_cons, List.nodup_append] at hnodup
    exact hnodup.2.2 _ (List.mem_map_of_mem ha) _ List.mem_cons_self hsame
  have hnone : (before.flatMap fun a =>
      (pending token parse a).map fun cmd => (a.2.number, cmd)).filter
        (fun entry => decide (entry.1 = c.2.number)) = [] := by
    rw [List.filter_eq_nil_iff]
    intro entry hentry
    obtain ⟨a, ha, hmember⟩ := List.mem_flatMap.mp hentry
    obtain ⟨cmd, -, rfl⟩ := List.mem_map.mp hmember
    simpa using hothers a ha
  rw [forwardedFrom, hforwarded, List.filter_append, List.flatMap_append, List.filter_append,
    hnone, List.nil_append, List.map_append, forwardedFrom]
  congr 1
  simp [List.filter_map, Function.comp_def]

theorem Numbered.serves_iff (h : s.Numbered) : s.Serves token parse ↔ s.Unblocked token parse := by
  constructor
  · intro hserves before c after hqueue hpending earlier hearlier
    by_contra hstuck
    obtain ⟨front, middle, rfl⟩ := List.append_of_mem hearlier
    have hbehind : s.Behind token parse c.2.number :=
      ⟨front, earlier, middle, c, after, by rw [hqueue, List.append_assoc]; rfl, hstuck, rfl⟩
    obtain ⟨n, hforwarded⟩ := hserves _ c after hqueue hpending
    rw [hbehind.listens h n, List.self_eq_append_right] at hforwarded
    exact hpending hforwarded
  · intro hunblocked before c after hqueue hpending
    obtain ⟨n, hforwarded⟩ := serve_through hqueue (hunblocked before c after hqueue hpending)
    exact ⟨n, forwardedFrom_through h hqueue hforwarded⟩

end CommandListener

/-- In every state that the listener comes to, all clients that have sent commands are
served if and only if none of them waits behind a connection that is still open and has
sent nothing to be dropped for. -/
theorem clients_served_iff {Cmd : Type} (token : List Char) (parse : List Char → Option Cmd)
    (is : List CommandListenerInput) :
    let s := (commandListener token parse).run .start is
    s.Serves token parse ↔ s.Unblocked token parse :=
  (CommandListener.run_numbered is).serves_iff

/-- The window of the host stays attached, and the approval prompt connects and sends the
answer. -/
def promptBehindWindow : List CommandListenerInput :=
  [.connect, .sendLine 0 (some "token"), .listen, .listen, .connect,
    .sendLine 1 (some "token"), .sendLine 1 (some "accept")]

/-- The answer is not forwarded while the window is attached. -/
theorem prompt_waits_for_window :
    ¬ ((commandListener "token".toList fun text =>
        if text = "accept".toList then some true else none).run .start
          promptBehindWindow).Serves "token".toList fun text =>
            if text = "accept".toList then some true else none := by
  rw [(CommandListener.run_numbered promptBehindWindow).serves_iff]
  intro hunblocked
  have hwindow := hunblocked [(.commands, ⟨0, [], some "", false⟩)]
    (.firstLine, ⟨1, [some "token", some "accept"], some "", false⟩) [] (by decide) (by decide)
    _ List.mem_cons_self
  rcases hwindow with habsurd | habsurd <;> exact absurd habsurd (by decide)

end EvertyDesk.Host
