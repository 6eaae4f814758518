import Mathlib.Data.List.Basic
import Mathlib.Data.List.TakeWhile

/-!
The input thread of a Hyper-V session. It takes all commands that wait in the channel as
one batch, leaves out the moves that another move overtakes, and joins texts that follow
each other, since every call to the machine's devices is slow.

The keyboard and the mouse are there and every call succeeds; what the thread reports of
its calls is left out.
-/

namespace EvertyDesk.HyperV

inductive HyperVCmd where
  | pressKey (sc : UInt32)
  | releaseKey (sc : UInt32)
  | typeText (text : String)
  | ctrlAltDel
  | moveMouse (x y : UInt32)
  | clickMouse (button : UInt32) (press : Bool)
  | mouseClick (button : UInt32)
  | stop
deriving DecidableEq, Repr

/-- What the thread asks of the keyboard and the mouse. -/
inductive DeviceCall where
  | typeText (asciiText : String)
  | pressKey (keyCode : UInt32)
  | releaseKey (keyCode : UInt32)
  | typeCtrlAltDel
  | mouseMove (x y : UInt32)
  | mouseButton (button : UInt32) (down : Bool)
  | mouseClick (button : UInt32)
deriving DecidableEq, Repr

abbrev Position := UInt32 × UInt32

/-- The move that waits for the next command, if there is one. -/
def pendingMove (latestMove : Option Position) : List HyperVCmd :=
  match latestMove with
  | some (x, y) => [.moveMouse x y]
  | none => []

/-- The first pass over a batch. A move waits until another command comes; one that is
overtaken by a move or by the end of the session is not made. -/
def compact (latestMove : Option Position) : List HyperVCmd → List HyperVCmd
  | [] => pendingMove latestMove
  | .moveMouse x y :: pending => compact (some (x, y)) pending
  | .stop :: _ => [.stop]
  | other :: pending => pendingMove latestMove ++ other :: compact none pending

def flushText (textBatch : String) : List DeviceCall :=
  if textBatch.isEmpty then [] else [.typeText textBatch]

/-- The second pass: the calls that are made, and whether the session is to end. Text is
collected, and typed before anything else is done. -/
def execute (textBatch : String) : List HyperVCmd → List DeviceCall × Bool
  | [] => (flushText textBatch, false)
  | .stop :: _ => (flushText textBatch, true)
  | .typeText text :: compacted => execute (textBatch ++ text) compacted
  | .pressKey sc :: compacted =>
      let (calls, stop) := execute "" compacted
      (flushText textBatch ++ .pressKey sc :: calls, stop)
  | .releaseKey sc :: compacted =>
      let (calls, stop) := execute "" compacted
      (flushText textBatch ++ .releaseKey sc :: calls, stop)
  | .ctrlAltDel :: compacted =>
      let (calls, stop) := execute "" compacted
      (flushText textBatch ++ .typeCtrlAltDel :: calls, stop)
  | .moveMouse x y :: compacted =>
      let (calls, stop) := execute "" compacted
      (flushText textBatch ++ .mouseMove x y :: calls, stop)
  | .clickMouse button press :: compacted =>
      let (calls, stop) := execute "" compacted
      (flushText textBatch ++ .mouseButton button press :: calls, stop)
  | .mouseClick button :: compacted =>
      let (calls, stop) := execute "" compacted
      (flushText textBatch ++ .mouseClick button :: calls, stop)

/-- The thread, by the batches that it takes from the channel. -/
def inputThread : List (List HyperVCmd) → List DeviceCall
  | [] => []
  | pending :: batches =>
      let (calls, stop) := execute "" (compact none pending)
      if stop then calls else calls ++ inputThread batches

/-! What the calls should be. -/

/-- The call that a command is for. -/
def HyperVCmd.call : HyperVCmd → Option DeviceCall
  | .pressKey sc => some (.pressKey sc)
  | .releaseKey sc => some (.releaseKey sc)
  | .typeText text => some (.typeText text)
  | .ctrlAltDel => some .typeCtrlAltDel
  | .moveMouse x y => some (.mouseMove x y)
  | .clickMouse button press => some (.mouseButton button press)
  | .mouseClick button => some (.mouseClick button)
  | .stop => none

/-- What comes next in the batch makes a move superfluous. -/
def overtakes : List HyperVCmd → Bool
  | .moveMouse _ _ :: _ => true
  | .stop :: _ => true
  | _ => false

/-- A batch without the moves that a later move, or the end, overtakes with no other
command in between. -/
def dropOvertaken : List HyperVCmd → List HyperVCmd
  | [] => []
  | .moveMouse x y :: rest =>
      if overtakes rest then dropOvertaken rest else .moveMouse x y :: dropOvertaken rest
  | cmd :: rest => cmd :: dropOvertaken rest

def beforeStop (cmds : List HyperVCmd) : List HyperVCmd := cmds.takeWhile (· ≠ .stop)

/-- The batches cut at the first end of the session. -/
def cutAtStop : List (List HyperVCmd) → List (List HyperVCmd)
  | [] => []
  | batch :: batches =>
      if .stop ∈ batch then [beforeStop batch] else batch :: cutAtStop batches

/-- The first text of the list with another before it. -/
def prependText (text : String) : List DeviceCall → List DeviceCall
  | .typeText next :: calls => .typeText (text ++ next) :: calls
  | calls => .typeText text :: calls

/-- The calls for a list of commands, with texts that follow each other joined. -/
def joinText : List HyperVCmd → List DeviceCall
  | [] => []
  | .typeText text :: cmds => prependText text (joinText cmds)
  | cmd :: cmds => cmd.call.toList ++ joinText cmds

/-- The calls of the list that is cut at the first end of the session, without overtaken
moves and with the texts of a batch joined. -/
def compactedCalls (batches : List (List HyperVCmd)) : List DeviceCall :=
  (cutAtStop (batches.map dropOvertaken)).flatMap joinText

/-- What is seen in the machine: the keys, the characters one by one, and the buttons
with the position that the last move before gave. -/
inductive InputEffect where
  | keyDown (keyCode : UInt32)
  | keyUp (keyCode : UInt32)
  | character (c : Char)
  | ctrlAltDel
  | button (position : Option Position) (button : UInt32) (down : Bool)
  | click (position : Option Position) (button : UInt32)
deriving DecidableEq, Repr

def effects (position : Option Position) : List DeviceCall → List InputEffect
  | [] => []
  | .typeText text :: calls => text.toList.map .character ++ effects position calls
  | .pressKey sc :: calls => .keyDown sc :: effects position calls
  | .releaseKey sc :: calls => .keyUp sc :: effects position calls
  | .typeCtrlAltDel :: calls => .ctrlAltDel :: effects position calls
  | .mouseMove x y :: calls => effects (some (x, y)) calls
  | .mouseButton button down :: calls => .button position button down :: effects position calls
  | .mouseClick button :: calls => .click position button :: effects position calls

/-- What the commands say is to be seen, each on its own. -/
def intended (position : Option Position) (cmds : List HyperVCmd) : List InputEffect :=
  effects position (cmds.filterMap HyperVCmd.call)

/-! The two passes over one batch. -/

/-- A list up to its first end of the session, which is kept. -/
def throughStop : List HyperVCmd → List HyperVCmd
  | [] => []
  | .stop :: _ => [.stop]
  | cmd :: cmds => cmd :: throughStop cmds

theorem compact_eq (latestMove : Option Position) (batch : List HyperVCmd) :
    compact latestMove batch = throughStop (dropOvertaken (pendingMove latestMove ++ batch)) := by
  induction batch generalizing latestMove with
  | nil => cases latestMove <;> rfl
  | cons cmd batch ih =>
      cases cmd with
      | moveMouse x y =>
          have hnext := ih (some (x, y))
          cases latestMove with
          | none => exact hnext
          | some position => exact hnext
      | stop => cases latestMove <;> rfl
      | _ =>
          have hnext := ih none
          cases latestMove with
          | none => exact congrArg _ hnext
          | some position => exact congrArg _ (congrArg _ hnext)

/-- A call that types nothing is not made. -/
def made (calls : List DeviceCall) : List DeviceCall := calls.filter (· ≠ .typeText "")

theorem made_typeText (text : String) (calls : List DeviceCall) :
    made (.typeText text :: calls) = flushText text ++ made calls := by
  by_cases hempty : text = ""
  · subst hempty
    rfl
  · have hflush : flushText text = [.typeText text] := by
      rw [flushText, if_neg (by simpa using hempty)]
    rw [hflush, made, List.filter_cons_of_pos (by simpa using hempty)]
    rfl

theorem made_cons {call : DeviceCall} (hcall : ∀ text, call ≠ .typeText text)
    (calls : List DeviceCall) : made (call :: calls) = call :: made calls :=
  List.filter_cons_of_pos (by simpa using hcall "")

theorem made_append (calls rest : List DeviceCall) :
    made (calls ++ rest) = made calls ++ made rest := List.filter_append _ _

theorem prependText_cons {call : DeviceCall} (hcall : ∀ text, call ≠ .typeText text)
    (text : String) (calls : List DeviceCall) :
    prependText text (call :: calls) = .typeText text :: call :: calls := by
  cases call with
  | typeText other => exact absurd rfl (hcall other)
  | _ => rfl

theorem prependText_prependText (text next : String) (calls : List DeviceCall) :
    prependText text (prependText next calls) = prependText (text ++ next) calls := by
  cases calls with
  | nil => rfl
  | cons call calls =>
      cases call with
      | typeText other => simp only [prependText, String.append_assoc]
      | _ => rfl

theorem made_prependText_empty (calls : List DeviceCall) :
    made (prependText "" calls) = made calls := by
  cases calls with
  | nil => rfl
  | cons call calls =>
      cases call with
      | typeText other => rw [prependText, String.empty_append]
      | _ => rfl

/-- The text collected so far is typed before a call that is no text. -/
theorem made_prependText_cons {call : DeviceCall} (hcall : ∀ text, call ≠ .typeText text)
    (text : String) (calls : List DeviceCall) :
    made (prependText text (call :: calls)) = flushText text ++ call :: made calls := by
  rw [prependText_cons hcall, made_typeText, made_cons hcall]

@[simp] theorem beforeStop_stop (cmds : List HyperVCmd) : beforeStop (.stop :: cmds) = [] := rfl

theorem beforeStop_cons {cmd : HyperVCmd} (hcmd : cmd ≠ .stop) (cmds : List HyperVCmd) :
    beforeStop (cmd :: cmds) = cmd :: beforeStop cmds :=
  List.takeWhile_cons_of_pos (by simpa using hcmd)

theorem execute_calls (textBatch : String) (cmds : List HyperVCmd) :
    (execute textBatch cmds).1 = made (prependText textBatch (joinText (beforeStop cmds))) := by
  induction cmds generalizing textBatch with
  | nil => exact ((made_typeText textBatch []).trans (List.append_nil _)).symm
  | cons cmd cmds ih =>
      cases cmd with
      | stop => exact ((made_typeText textBatch []).trans (List.append_nil _)).symm
      | typeText text =>
          rw [beforeStop_cons (by simp), joinText, prependText_prependText]
          exact ih (textBatch ++ text)
      | _ =>
          have hrest := ih ""
          rw [made_prependText_empty] at hrest
          rw [beforeStop_cons (by simp), joinText, HyperVCmd.call, Option.toList_some,
            List.singleton_append, made_prependText_cons (by simp), ← hrest]
          · rfl
          · simp

theorem execute_stop (textBatch : String) (cmds : List HyperVCmd) :
    (execute textBatch cmds).2 = decide (.stop ∈ cmds) := by
  induction cmds generalizing textBatch with
  | nil => rfl
  | cons cmd cmds ih =>
      cases cmd with
      | stop => simp [execute]
      | typeText text => simpa [execute] using ih (textBatch ++ text)
      | _ => simpa [execute] using ih ""

theorem beforeStop_throughStop (cmds : List HyperVCmd) :
    beforeStop (throughStop cmds) = beforeStop cmds := by
  induction cmds with
  | nil => rfl
  | cons cmd cmds ih =>
      cases cmd with
      | stop => rfl
      | _ =>
          rw [throughStop, beforeStop_cons (by simp), beforeStop_cons (by simp), ih]
          simp

theorem stop_mem_throughStop (cmds : List HyperVCmd) : .stop ∈ throughStop cmds ↔ .stop ∈ cmds := by
  induction cmds with
  | nil => exact Iff.rfl
  | cons cmd cmds ih => cases cmd <;> simp [throughStop, ih]

theorem stop_mem_dropOvertaken (cmds : List HyperVCmd) :
    .stop ∈ dropOvertaken cmds ↔ .stop ∈ cmds := by
  induction cmds with
  | nil => exact Iff.rfl
  | cons cmd cmds ih =>
      cases cmd with
      | moveMouse x y =>
          rw [dropOvertaken]
          split_ifs <;> simp [ih]
      | _ => simp [dropOvertaken, ih]

/-- What the thread does with one batch. -/
theorem execute_compact (batch : List HyperVCmd) :
    execute "" (compact none batch) =
      (made (joinText (beforeStop (dropOvertaken batch))), decide (.stop ∈ batch)) := by
  apply Prod.ext
  · rw [execute_calls, made_prependText_empty, compact_eq, beforeStop_throughStop]
    rfl
  · rw [execute_stop, compact_eq]
    exact decide_eq_decide.mpr ((stop_mem_throughStop _).trans (stop_mem_dropOvertaken batch))

theorem ne_stop_of_not_mem {cmds : List HyperVCmd} (h : .stop ∉ cmds) :
    ∀ cmd ∈ cmds, decide (cmd ≠ .stop) = true := by
  intro cmd hcmd
  simpa using fun hstop : cmd = .stop => h (hstop ▸ hcmd)

theorem beforeStop_of_not_mem {cmds : List HyperVCmd} (h : .stop ∉ cmds) : beforeStop cmds = cmds :=
  List.takeWhile_eq_self_iff.mpr (ne_stop_of_not_mem h)

theorem beforeStop_append {cmds : List HyperVCmd} (h : .stop ∉ cmds)
    (rest : List HyperVCmd) : beforeStop (cmds ++ rest) = cmds ++ beforeStop rest :=
  List.takeWhile_append_of_pos (ne_stop_of_not_mem h)

theorem beforeStop_append_of_mem {cmds : List HyperVCmd} (h : .stop ∈ cmds)
    (rest : List HyperVCmd) : beforeStop (cmds ++ rest) = beforeStop cmds := by
  induction cmds with
  | nil => cases h
  | cons cmd cmds ih =>
      by_cases hcmd : cmd = .stop
      · subst hcmd
        rfl
      · have hrest : .stop ∈ cmds := (List.mem_cons.mp h).resolve_left (Ne.symm hcmd)
        rw [List.cons_append, beforeStop_cons hcmd, beforeStop_cons hcmd, ih hrest]

/-- The thread makes the calls of the compacted list, without those that type nothing. -/
theorem inputThread_eq (batches : List (List HyperVCmd)) :
    inputThread batches = made (compactedCalls batches) := by
  induction batches with
  | nil => rfl
  | cons batch batches ih =>
      rw [inputThread, execute_compact, compactedCalls, List.map_cons, cutAtStop]
      by_cases hstop : .stop ∈ batch
      · rw [if_pos ((stop_mem_dropOvertaken batch).mpr hstop)]
        simp [hstop]
      · have hkept := mt (stop_mem_dropOvertaken batch).mp hstop
        rw [if_neg hkept, beforeStop_of_not_mem hkept, List.flatMap_cons, made_append]
        simp only [hstop, decide_false, Bool.false_eq_true, if_false, ih]
        rfl

/-! What is seen in the machine. -/

/-- The same is seen of both lists of calls, whatever comes before and after them. -/
def SeenAs (calls other : List DeviceCall) : Prop :=
  ∀ position rest, effects position (calls ++ rest) = effects position (other ++ rest)

theorem SeenAs.trans {calls other last : List DeviceCall} (h : SeenAs calls other)
    (h' : SeenAs other last) : SeenAs calls last :=
  fun position rest => (h position rest).trans (h' position rest)

theorem SeenAs.cons {calls other : List DeviceCall} (h : SeenAs calls other)
    (call : DeviceCall) : SeenAs (call :: calls) (call :: other) := by
  intro position rest
  cases call <;> simp only [List.cons_append, effects, h _ rest]

/-- What is seen of a list that goes on does not depend on how it goes on. -/
theorem effects_append_congr {rest other : List DeviceCall}
    (h : ∀ position, effects position rest = effects position other)
    (position : Option Position) (calls : List DeviceCall) :
    effects position (calls ++ rest) = effects position (calls ++ other) := by
  induction calls generalizing position with
  | nil => exact h position
  | cons call calls ih => cases call <;> simp only [List.cons_append, effects, ih]

theorem made_seenAs (calls : List DeviceCall) : SeenAs (made calls) calls := by
  induction calls with
  | nil => exact fun _ _ => rfl
  | cons call calls ih =>
      by_cases hempty : call = .typeText ""
      · subst hempty
        intro position rest
        rw [made_typeText, List.cons_append, effects]
        exact ih position rest
      · have hkept : made (call :: calls) = call :: made calls :=
          List.filter_cons_of_pos (by simpa using hempty)
        rw [hkept]
        exact ih.cons call

theorem prependText_seenAs (text : String) (calls : List DeviceCall) :
    SeenAs (prependText text calls) (.typeText text :: calls) := by
  intro position rest
  cases calls with
  | nil => rfl
  | cons call calls =>
      cases call with
      | typeText next =>
          simp only [prependText, List.cons_append, effects, String.toList_append,
            List.map_append, List.append_assoc]
      | _ => rfl

theorem joinText_seenAs (cmds : List HyperVCmd) :
    SeenAs (joinText cmds) (cmds.filterMap HyperVCmd.call) := by
  induction cmds with
  | nil => exact fun _ _ => rfl
  | cons cmd cmds ih =>
      cases cmd with
      | typeText text => exact (prependText_seenAs text _).trans (ih.cons _)
      | stop => exact ih
      | _ => exact ih.cons _

/-- A list of commands that starts with an overtaking one, or has nothing to come after
it, does not ask for the position before. -/
theorem effects_of_overtakes {cmds : List HyperVCmd} (h : overtakes cmds)
    {rest : List DeviceCall} (hrest : .stop ∈ cmds → rest = [])
    (position position' : Option Position) :
    effects position ((beforeStop cmds).filterMap HyperVCmd.call ++ rest) =
      effects position' ((beforeStop cmds).filterMap HyperVCmd.call ++ rest) := by
  cases cmds with
  | nil => cases h
  | cons cmd cmds =>
      cases cmd with
      | moveMouse x y => rfl
      | stop =>
          rw [hrest List.mem_cons_self]
          rfl
      | _ => cases h

/-- The moves left out are not missed; where the session ends nothing comes after. -/
theorem effects_dropOvertaken {batch : List HyperVCmd} {rest : List DeviceCall}
    (hrest : .stop ∈ batch → rest = []) (position : Option Position) :
    effects position ((beforeStop (dropOvertaken batch)).filterMap HyperVCmd.call ++ rest) =
      effects position ((beforeStop batch).filterMap HyperVCmd.call ++ rest) := by
  induction batch generalizing position with
  | nil => rfl
  | cons cmd batch ih =>
      have hlater : .stop ∈ batch → rest = [] := fun h => hrest (List.mem_cons_of_mem _ h)
      cases cmd with
      | moveMouse x y =>
          rw [dropOvertaken]
          by_cases hovertakes : overtakes batch
          · rw [if_pos hovertakes, ih hlater, beforeStop_cons (by simp)]
            exact effects_of_overtakes hovertakes hlater _ _
          · rw [if_neg hovertakes, beforeStop_cons (by simp), beforeStop_cons (by simp)]
            exact ih hlater _
      | stop => rfl
      | _ =>
          rw [dropOvertaken, beforeStop_cons (by simp), beforeStop_cons (by simp)]
          · simp only [List.filterMap_cons, HyperVCmd.call, List.cons_append, effects, ih hlater]
          · simp

/-- Everything that is sent is seen in its order, with every button at the position that
was sent last before it. -/
theorem effects_inputThread (position : Option Position) (batches : List (List HyperVCmd)) :
    effects position (inputThread batches) = intended position (beforeStop batches.flatten) := by
  induction batches generalizing position with
  | nil => rfl
  | cons batch batches ih =>
      have hbatch := ((made_seenAs _).trans
        (joinText_seenAs (beforeStop (dropOvertaken batch)))) position
      rw [inputThread, execute_compact, List.flatten_cons, intended]
      by_cases hstop : .stop ∈ batch
      · have hall := (hbatch []).trans (effects_dropOvertaken (fun _ => rfl) position)
        rw [beforeStop_append_of_mem hstop]
        simpa [hstop] using hall
      · have hfirst := (hbatch (inputThread batches)).trans
          (effects_dropOvertaken (fun h => absurd h hstop) position)
        rw [beforeStop_of_not_mem hstop] at hfirst
        rw [beforeStop_append hstop, List.filterMap_append]
        simp only [hstop, decide_false, Bool.false_eq_true, if_false]
        exact hfirst.trans (effects_append_congr ih position _)

/-- The calls are those of the list cut at the first end of the session, without the
overtaken moves of each batch and with its texts joined, as far as they type anything; and
everything is seen in the order in which it was sent. -/
theorem inputThread_compacts (batches : List (List HyperVCmd)) :
    inputThread batches = (compactedCalls batches).filter (· ≠ .typeText "") ∧
      ∀ position, effects position (inputThread batches) =
        intended position (batches.flatten.takeWhile (· ≠ .stop)) :=
  ⟨inputThread_eq batches, fun position => effects_inputThread position batches⟩

/-- A text without characters is not typed. -/
theorem empty_text_not_typed : inputThread [[.typeText ""]] ≠ compactedCalls [[.typeText ""]] := by
  decide

end EvertyDesk.HyperV
