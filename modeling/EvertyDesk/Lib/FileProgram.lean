import Mathlib.Logic.Function.Basic

/-!
Programs over files that may be cut short. A program reads files and changes them step by
step, and goes on by what it read and by which steps failed. A step that writes may fail
after a part of the content; a program may never do its next step. A program is safe if a
property of the files holds before each of its steps, so that it holds wherever the
program ends.
-/

namespace EvertyDesk

/-- The contents of the files that there are. -/
abbrev Files (File Byte : Type*) := File → Option (List Byte)

inductive FileAction (File Byte : Type*) where
  | makeDirectory
  | remove (file : File)
  | rename (source target : File)
  | write (file : File) (content : List Byte)
  | copy (source target : File)

inductive Fate where
  | goesThrough
  /-- A step that writes leaves the file alone or leaves that much of the content. -/
  | fails (kept : Option Nat)
deriving DecidableEq, Repr

namespace FileAction

variable {File Byte : Type*} [DecidableEq File]

def writeContent (files : Files File Byte) (file : File) (content : List Byte) :
    Fate → Files File Byte × Bool
  | .goesThrough => (Function.update files file (some content), true)
  | .fails (some kept) => (Function.update files file (some (content.take kept)), false)
  | .fails none => (files, false)

/-- What the action does, and whether it reports success. -/
def perform (files : Files File Byte) : FileAction File Byte → Fate → Files File Byte × Bool
  | write file content, fate => writeContent files file content fate
  | copy source target, fate =>
      match files source with
      | some content => writeContent files target content fate
      | none => (files, false)
  | _, .fails _ => (files, false)
  | makeDirectory, .goesThrough => (files, true)
  | remove file, .goesThrough =>
      match files file with
      | some _ => (Function.update files file none, true)
      | none => (files, false)
  | rename source target, .goesThrough =>
      match files source with
      | some content =>
          (Function.update (Function.update files source none) target (some content), true)
      | none => (files, false)

end FileAction

inductive FileProgram (File Byte : Type) (Result : Type) where
  | done (result : Result)
  | read (file : File) (next : Option (List Byte) → FileProgram File Byte Result)
  | act (action : FileAction File Byte) (next : Bool → FileProgram File Byte Result)

namespace FileProgram

variable {File Byte Result Other : Type}

def bind (next : Result → FileProgram File Byte Other) :
    FileProgram File Byte Result → FileProgram File Byte Other
  | done result => next result
  | read file rest => read file fun content => (rest content).bind next
  | act action rest => act action fun ok => (rest ok).bind next

instance : Monad (FileProgram File Byte) where
  pure := done
  bind program next := program.bind next

def readFile (file : File) : FileProgram File Byte (Option (List Byte)) := read file done

def fileExists (file : File) : FileProgram File Byte Bool :=
  read file fun content => done content.isSome

def perform (action : FileAction File Byte) : FileProgram File Byte Bool := act action done

/-- The second program follows if the first one reports success. -/
def orFail (first second : FileProgram File Byte Bool) : FileProgram File Byte Bool := do
  if ← first then second else return false

def removeIfExists (file : File) : FileProgram File Byte Bool := do
  if ← fileExists file then perform (.remove file) else return true

variable [DecidableEq File]

/-- A program that has ended stays as it is. -/
def step (files : Files File Byte) (fate : Fate) :
    FileProgram File Byte Result → FileProgram File Byte Result × Files File Byte
  | done result => (done result, files)
  | read file next => (next (files file), files)
  | act action next =>
      (next (action.perform files fate).2, (action.perform files fate).1)

/-- What may be assumed of the next step of the program. -/
def Allowed (allowed : FileAction File Byte → Files File Byte → Prop)
    (files : Files File Byte) : FileProgram File Byte Result → Prop
  | act action _ => allowed action files
  | _ => True

/-- As long as its actions are allowed, `inv` is true before each step of the program and
at its end, where `returns` is true as well. -/
def Safe (allowed : FileAction File Byte → Files File Byte → Prop)
    (inv : Files File Byte → Prop) (returns : Result → Files File Byte → Prop) :
    FileProgram File Byte Result → Files File Byte → Prop
  | done result, files => inv files ∧ returns result files
  | read file next, files => inv files ∧ (next (files file)).Safe allowed inv returns files
  | act action next, files =>
      inv files ∧ (allowed action files → ∀ fate,
        (next (action.perform files fate).2).Safe allowed inv returns (action.perform files fate).1)

section Safe

variable {allowed : FileAction File Byte → Files File Byte → Prop}
  {inv : Files File Byte → Prop} {files : Files File Byte}

theorem Safe.inv_now {returns : Result → Files File Byte → Prop}
    {program : FileProgram File Byte Result} (h : program.Safe allowed inv returns files) :
    inv files := by
  cases program with
  | done result => exact h.1
  | read file next => exact h.1
  | act action next => exact h.1

/-- Safety is preserved by every step that is allowed. -/
theorem Safe.step {returns : Result → Files File Byte → Prop}
    {program : FileProgram File Byte Result} (h : program.Safe allowed inv returns files)
    (hallowed : program.Allowed allowed files) (fate : Fate) :
    (program.step files fate).1.Safe allowed inv returns (program.step files fate).2 := by
  cases program with
  | done result => exact h
  | read file next => exact h.2
  | act action next => exact h.2 hallowed fate

@[simp] theorem safe_pure {returns : Result → Files File Byte → Prop} (result : Result) :
    (pure result : FileProgram File Byte Result).Safe allowed inv returns files ↔
      inv files ∧ returns result files := Iff.rfl

/-- A composition is safe if the first program is, up to where the second one is. -/
theorem safe_bind {returns : Other → Files File Byte → Prop}
    {program : FileProgram File Byte Result} {next : Result → FileProgram File Byte Other} :
    (program >>= next).Safe allowed inv returns files ↔
      program.Safe allowed inv
        (fun result files => (next result).Safe allowed inv returns files) files := by
  change (program.bind next).Safe allowed inv returns files ↔ _
  induction program generalizing files with
  | done result => exact ⟨fun h => ⟨h.inv_now, h⟩, And.right⟩
  | read file rest ih => exact and_congr Iff.rfl (ih _)
  | act action rest ih =>
      exact and_congr Iff.rfl (imp_congr Iff.rfl (forall_congr' fun fate => ih _))

@[simp] theorem safe_readFile
    {returns : Option (List Byte) → Files File Byte → Prop} {file : File} :
    (readFile file).Safe allowed inv returns files ↔ inv files ∧ returns (files file) files := by
  simp [readFile, Safe]

@[simp] theorem safe_fileExists {returns : Bool → Files File Byte → Prop} {file : File} :
    (fileExists file).Safe allowed inv returns files ↔
      inv files ∧ returns (files file).isSome files := by
  simp [fileExists, Safe]

theorem Safe.weaken {returns weaker : Result → Files File Byte → Prop}
    {program : FileProgram File Byte Result} (h : program.Safe allowed inv returns files)
    (hweaker : ∀ result files, inv files → returns result files → weaker result files) :
    program.Safe allowed inv weaker files := by
  induction program generalizing files with
  | done result => exact ⟨h.1, hweaker _ _ h.1 h.2⟩
  | read file next ih => exact ⟨h.1, ih _ h.2⟩
  | act action next ih => exact ⟨h.1, fun hallowed fate => ih _ (h.2 hallowed fate)⟩

theorem safe_map {returns : Other → Files File Byte → Prop}
    {program : FileProgram File Byte Result} {value : Result → Other} :
    (value <$> program).Safe allowed inv returns files ↔
      program.Safe allowed inv (fun result files => returns (value result) files) files := by
  change (program >>= fun result => pure (value result)).Safe allowed inv returns files ↔ _
  rw [safe_bind]
  exact ⟨fun h => h.weaken fun _ _ _ => And.right, fun h => h.weaken fun _ _ => And.intro⟩

theorem Safe.orFail {returns : Bool → Files File Byte → Prop}
    {first second : FileProgram File Byte Bool} (between : Bool → Files File Byte → Prop)
    (hfirst : first.Safe allowed inv between files)
    (hsecond : ∀ files, inv files → between true files → second.Safe allowed inv returns files)
    (hfailed : ∀ files, between false files → returns false files) :
    (first.orFail second).Safe allowed inv returns files := by
  rw [FileProgram.orFail, safe_bind]
  apply hfirst.weaken
  intro ok files hinv hbetween
  cases ok with
  | true => exact hsecond files hinv hbetween
  | false => exact ⟨hinv, hfailed files hbetween⟩

end Safe

end FileProgram

end EvertyDesk
