import EvertyDesk.Transport.SessionLoop

/-!
The commands of a turn. A mouse move waits for the command after it and gives way to a
later move; everything else is done in order, after the move that waited.
-/

namespace EvertyDesk.Transport

open RunSession

def SessionCommand.isMove : SessionCommand → Bool
  | .mouseMove .. => true
  | _ => false

/-- The commands without the moves that another move directly follows. -/
def withoutOvertaken : List (Nat × SessionCommand) → List (Nat × SessionCommand)
  | [] => []
  | command :: rest =>
      if command.2.isMove && rest.head?.any (fun next => next.2.isMove) then
        withoutOvertaken rest
      else command :: withoutOvertaken rest

namespace RunSession

variable (cfg : SessionConfig)

/-- A command that waits for nothing. -/
def obey (s : RunSession) (now : Nat) : SessionCommand → RunSession
  | .mouseMove x y => s.sendMouse mouseTypeMove x y
  | command => s.onOtherCommand cfg now command

/-- The commands one after the other, until the session has returned. -/
def obeyAll (s : RunSession) : List (Nat × SessionCommand) → RunSession
  | [] => s
  | (now, command) :: rest =>
      if s.returned then s else (s.obey cfg now command).obeyAll rest

end RunSession

/-- The part of a turn in which the commands are taken. -/
def commandSteps (commands : List (Nat × SessionCommand)) : List LoopStep :=
  commands.map (fun command => .command command.1 command.2) ++ [.commandsDrained]

section Drain

variable (cfg : SessionConfig)

theorem onOtherCommand_pending (s : RunSession) (now : Nat) (command : SessionCommand) :
    (s.onOtherCommand cfg now command).pendingMouseMove = s.pendingMouseMove := by
  cases command with
  | screenshot => simp only [onOtherCommand]; split <;> rfl
  | setDisplay index => simp only [onOtherCommand]; split <;> rfl
  | setAutoRefresh enabled millis => simp only [onOtherCommand]; split <;> rfl
  | refreshVideo => simp only [onOtherCommand]; split <;> rfl
  | setVideoFps fps => simp only [onOtherCommand]; split <;> rfl
  | setVideoProfile fps codec => simp only [onOtherCommand]; split <;> rfl
  | _ => rfl

theorem obeyAll_of_returned {s : RunSession} (h : s.returned = true)
    (commands : List (Nat × SessionCommand)) : s.obeyAll cfg commands = s := by
  cases commands with
  | nil => rfl
  | cons command rest => exact if_pos h

theorem run_of_returned {s : RunSession} (h : s.returned = true) (steps : List LoopStep) :
    (runSession cfg).run s steps = s := by
  induction steps with
  | nil => rfl
  | cons step steps ih =>
      have hstep : ((runSession cfg).step s step).1 = s := if_pos h
      rw [Machine.run_cons, hstep, ih]

/-- A session in which a move waits. -/
def RunSession.waiting (s : RunSession) (move : Option (Int × Int)) : RunSession :=
  { s with pendingMouseMove := move }

/-- The move that waits as a command. -/
def moveCommand (move : Option (Int × Int)) : List (Nat × SessionCommand) :=
  move.toList.map fun xy => (0, .mouseMove xy.1 xy.2)

theorem waiting_none {s : RunSession} (hnone : s.pendingMouseMove = none) : s.waiting none = s := by
  cases s
  cases hnone
  rfl

/-- The waiting move is done like a command. -/
theorem obeyAll_moveCommand {s : RunSession} (hrunning : s.returned = false)
    (hnone : s.pendingMouseMove = none) (move : Option (Int × Int))
    (rest : List (Nat × SessionCommand)) :
    s.obeyAll cfg (moveCommand move ++ rest) =
      ((s.waiting move).flushPendingMouseMove).obeyAll cfg rest := by
  cases move with
  | none =>
      rw [waiting_none hnone]
      unfold flushPendingMouseMove
      rw [hnone]
      rfl
  | some xy =>
      have hflushed : (s.waiting (some xy)).flushPendingMouseMove =
          s.sendMouse mouseTypeMove xy.1 xy.2 := by
        cases s
        cases hnone
        rfl
      rw [hflushed]
      exact if_neg (Bool.eq_false_iff.mp hrunning)

theorem withoutOvertaken_move (move : Option (Int × Int)) (now : Nat) (x y : Int)
    (rest : List (Nat × SessionCommand)) :
    withoutOvertaken (moveCommand move ++ (now, .mouseMove x y) :: rest) =
      withoutOvertaken ((now, .mouseMove x y) :: rest) := by
  cases move <;> rfl

theorem withoutOvertaken_other (move : Option (Int × Int)) (now : Nat) {command : SessionCommand}
    (h : command.isMove = false) (rest : List (Nat × SessionCommand)) :
    withoutOvertaken (moveCommand move ++ (now, command) :: rest) =
      moveCommand move ++ (now, command) :: withoutOvertaken rest := by
  cases move <;> simp [moveCommand, withoutOvertaken, h]

/-- The time of a move plays no part. -/
theorem obeyAll_withoutOvertaken_time {s : RunSession} (now now' : Nat) (x y : Int)
    (rest : List (Nat × SessionCommand)) :
    s.obeyAll cfg (withoutOvertaken ((now, .mouseMove x y) :: rest)) =
      s.obeyAll cfg (withoutOvertaken ((now', .mouseMove x y) :: rest)) := by
  unfold withoutOvertaken
  split
  · rfl
  · rfl

/-- The way through the commands, from a session in which a move waits. -/
theorem run_commandSteps {s : RunSession} (hrunning : s.returned = false)
    (hnone : s.pendingMouseMove = none) (move : Option (Int × Int))
    (commands : List (Nat × SessionCommand)) :
    (runSession cfg).run (s.waiting move) (commandSteps commands) =
      s.obeyAll cfg (withoutOvertaken (moveCommand move ++ commands)) := by
  induction commands generalizing s move with
  | nil =>
      have hstep : (runSession cfg).run (s.waiting move) (commandSteps []) =
          (s.waiting move).flushPendingMouseMove := if_neg (Bool.eq_false_iff.mp hrunning)
      have hsame : withoutOvertaken (moveCommand move) = moveCommand move := by
        cases move <;> rfl
      rw [hstep, List.append_nil, hsame, ← List.append_nil (moveCommand move),
        obeyAll_moveCommand cfg hrunning hnone move []]
      rfl
  | cons command commands ih =>
      obtain ⟨now, command⟩ := command
      have hstep : (runSession cfg).run (s.waiting move)
          (commandSteps ((now, command) :: commands)) =
          (runSession cfg).run ((s.waiting move).onCommand cfg now command)
            (commandSteps commands) := by
        have hfirst : ((runSession cfg).step (s.waiting move) (.command now command)).1 =
            (s.waiting move).onCommand cfg now command := if_neg (Bool.eq_false_iff.mp hrunning)
        rw [← hfirst]
        rfl
      rw [hstep]
      cases hmove : command.isMove with
      | true =>
          obtain ⟨x, y, rfl⟩ : ∃ x y, command = .mouseMove x y := by
            cases command with
            | mouseMove x y => exact ⟨x, y, rfl⟩
            | _ => contradiction
          have hnext : (s.waiting move).onCommand cfg now (.mouseMove x y) =
              s.waiting (some (x, y)) := rfl
          rw [hnext, ih hrunning hnone, withoutOvertaken_move]
          exact obeyAll_withoutOvertaken_time cfg 0 now x y commands
      | false =>
          obtain ⟨hother, hobey⟩ : (s.waiting move).onCommand cfg now command =
              (s.waiting move).flushPendingMouseMove.onOtherCommand cfg now command ∧
              ∀ t : RunSession, t.obey cfg now command = t.onOtherCommand cfg now command := by
            cases command with
            | mouseMove x y => contradiction
            | _ => exact ⟨rfl, fun _ => rfl⟩
          have hflushed : (s.waiting move).flushPendingMouseMove.returned = false ∧
              (s.waiting move).flushPendingMouseMove.pendingMouseMove = none := by
            cases move <;> exact ⟨hrunning, rfl⟩
          rw [hother, withoutOvertaken_other move now hmove,
            obeyAll_moveCommand cfg hrunning hnone move]
          generalize (s.waiting move).flushPendingMouseMove = t at hflushed
          have hnext : (t.onOtherCommand cfg now command).pendingMouseMove = none :=
            (onOtherCommand_pending cfg t now command).trans hflushed.2
          have hall : t.obeyAll cfg ((now, command) :: withoutOvertaken commands) =
              (t.onOtherCommand cfg now command).obeyAll cfg (withoutOvertaken commands) := by
            rw [← hobey t]
            exact if_neg (Bool.eq_false_iff.mp hflushed.1)
          rw [hall]
          cases hreturned : (t.onOtherCommand cfg now command).returned with
          | true => rw [run_of_returned cfg hreturned, obeyAll_of_returned cfg hreturned]
          | false =>
              have hrest := ih hreturned hnext none
              rw [waiting_none hnext] at hrest
              exact hrest

/-- Taking the commands of a turn comes to obeying them one by one, without the mouse moves
that another move directly follows. -/
theorem drained_eq_obeyed (s : RunSession) (hnone : s.pendingMouseMove = none)
    (commands : List (Nat × SessionCommand)) :
    (runSession cfg).run s (commandSteps commands) = s.obeyAll cfg (withoutOvertaken commands) := by
  cases hreturned : s.returned with
  | true => rw [run_of_returned cfg hreturned, obeyAll_of_returned cfg hreturned]
  | false =>
      have hrun := run_commandSteps cfg hreturned hnone none commands
      rwa [waiting_none hnone] at hrun

/-- A move, a later move and a press of the button. -/
theorem drained_eq_obeyed_click :
    let cfg : SessionConfig := ⟨false, .auto, 30, 10, true, ⟨true, false, false, true, false⟩⟩
    (runSession cfg).run (start cfg 0)
        (commandSteps [(1, .mouseMove 10 20), (1, .mouseMove 30 40), (2, .mouseDown 30 40)]) =
      (start cfg 0).obeyAll cfg [(1, .mouseMove 30 40), (2, .mouseDown 30 40)] :=
  drained_eq_obeyed _ _ rfl _

end Drain

end EvertyDesk.Transport
