import Mathlib.Data.List.Basic
import Mathlib.Data.List.Sort
import Mathlib.Algebra.Order.Group.Nat

/-!
Programs over 64-bit machine words that may panic. The arithmetic and the slice
operations panic where the machine's would wrap or fail; a `Proc` is a program
with a state of its own that may also fail with an error, after which the state
is what it was at that point. The rules are for showing that a program does not
panic and for running one whose steps are known.
-/

namespace EvertyDesk

/-- Why a program stops without a result. -/
inductive Panic where
  | overflow
  | outOfBounds
  | capacity
  | divisionByZero
  | noTotalOrder
  | unreachable
deriving DecidableEq, Repr

abbrev Checked := Except Panic

namespace Checked

variable {Item State : Type*}

/-- Addresses are 64 bits wide. -/
def wordLimit : Nat := 2 ^ 64

/-- No object has more bytes than a signed word can count. -/
def sizeLimit : Nat := 2 ^ 63

def add (left right : Nat) : Checked Nat :=
  if left + right < wordLimit then .ok (left + right) else .error .overflow

def sub (left right : Nat) : Checked Nat :=
  if right ≤ left then .ok (left - right) else .error .overflow

def mul (left right : Nat) : Checked Nat :=
  if left * right < wordLimit then .ok (left * right) else .error .overflow

def div (left right : Nat) : Checked Nat :=
  if right ≠ 0 then .ok (left / right) else .error .divisionByZero

def mod (left right : Nat) : Checked Nat :=
  if right ≠ 0 then .ok (left % right) else .error .divisionByZero

/-- A new buffer of this many bytes; memory itself does not run out. -/
def allocate (bytes : Nat) : Checked Unit :=
  if bytes < sizeLimit then .ok () else .error .capacity

def index (items : List Item) (position : Nat) : Checked Item :=
  match items[position]? with
  | some item => .ok item
  | none => .error .outOfBounds

def slice (items : List Item) (start stop : Nat) : Checked (List Item) :=
  if start ≤ stop ∧ stop ≤ items.length then
    .ok ((items.drop start).take (stop - start))
  else .error .outOfBounds

/-- The list with another item at a position. -/
def replace (items : List Item) (position : Nat) (item : Item) : Checked (List Item) :=
  if position < items.length then .ok (items.set position item) else .error .outOfBounds

/-- A stable sort, which may panic if the comparison is no total order on the
items. -/
def sortBy (before : Item → Item → Bool) (items : List Item) : Checked (List Item) :=
  if ∀ a ∈ items, ∀ b ∈ items, (before a b ∨ before b a) ∧
      ∀ c ∈ items, before a b → before b c → before a c then
    .ok (items.mergeSort before)
  else .error .noTotalOrder

theorem bind_ok {Result Next : Type} {computation : Checked Result} {result : Result}
    {next : Result → Checked Next} (h : computation = .ok result) :
    (computation >>= next) = next result := by
  subst h
  rfl

theorem bind_panics {Result Next : Type} {computation : Checked Result} {panic : Panic}
    {next : Result → Checked Next} (h : computation = .error panic) :
    (computation >>= next) = .error panic := by
  subst h
  rfl

theorem returns_of_bind.{u} {Result Next : Type u} {computation : Checked Result}
    {next : Result → Checked Next} {after : Next} (h : (computation >>= next) = .ok after) :
    ∃ result, computation = .ok result ∧ next result = .ok after := by
  cases computation with
  | error panic => cases h
  | ok result => exact ⟨result, rfl, h⟩

/-- What goes on in any case returns if its start does. -/
theorem bind_returns_iff {Result Next : Type} {computation : Checked Result}
    {next : Result → Checked Next} (h : ∀ result, ∃ after, next result = .ok after) :
    (∃ after, (computation >>= next) = .ok after) ↔ ∃ result, computation = .ok result := by
  cases computation with
  | error panic =>
      constructor
      · rintro ⟨_, hafter⟩
        cases hafter
      · rintro ⟨_, hresult⟩
        cases hresult
  | ok result => exact ⟨fun _ => ⟨result, rfl⟩, fun _ => h result⟩

theorem add_ok {left right : Nat} (h : left + right < wordLimit) :
    add left right = .ok (left + right) := if_pos h

theorem sub_ok {left right : Nat} (h : right ≤ left) :
    sub left right = .ok (left - right) := if_pos h

theorem mul_ok {left right : Nat} (h : left * right < wordLimit) :
    mul left right = .ok (left * right) := if_pos h

theorem add_returns {left right result : Nat} (h : add left right = .ok result) :
    result = left + right := by
  unfold add at h
  split at h
  · exact (Except.ok.inj h).symm
  · cases h

theorem sub_returns {left right result : Nat} (h : sub left right = .ok result) :
    result = left - right := by
  unfold sub at h
  split at h
  · exact (Except.ok.inj h).symm
  · cases h

theorem mul_returns {left right result : Nat} (h : mul left right = .ok result) :
    result = left * right := by
  unfold mul at h
  split at h
  · exact (Except.ok.inj h).symm
  · cases h

theorem div_ok {left right : Nat} (h : 0 < right) :
    div left right = .ok (left / right) := if_pos h.ne'

theorem mod_ok {left right : Nat} (h : 0 < right) :
    mod left right = .ok (left % right) := if_pos h.ne'

theorem allocate_ok {bytes : Nat} (h : bytes < sizeLimit) : allocate bytes = .ok () := if_pos h

theorem index_ok {items : List Item} {position : Nat} (h : position < items.length) :
    index items position = .ok items[position] := by
  rw [index, List.getElem?_eq_getElem h]

theorem replace_ok {items : List Item} {position : Nat} {item : Item}
    (h : position < items.length) :
    replace items position item = .ok (items.set position item) := if_pos h

theorem slice_ok {items : List Item} {start stop : Nat} (hle : start ≤ stop)
    (hstop : stop ≤ items.length) :
    slice items start stop = .ok ((items.drop start).take (stop - start)) :=
  if_pos ⟨hle, hstop⟩

/-! Reading on from a position. -/

theorem length_of_drop {items rest : List Item} {position : Nat}
    (h : items.drop position = rest) (hle : position ≤ items.length) :
    items.length = position + rest.length := by
  rw [← h, List.length_drop]
  omega

theorem drop_further {items part rest : List Item} {position : Nat}
    (h : items.drop position = part ++ rest) :
    items.drop (position + part.length) = rest := by
  rw [← List.drop_drop, h, List.drop_left]

theorem index_of_drop {items rest : List Item} {item : Item} {position : Nat}
    (h : items.drop position = item :: rest) : index items position = .ok item := by
  have hget : items[position]? = some item := by
    have hhead : (items.drop position)[0]? = items[position + 0]? := List.getElem?_drop
    rw [h, List.getElem?_cons_zero, Nat.add_zero] at hhead
    exact hhead.symm
  rw [index, hget]

theorem slice_of_drop {items part rest : List Item} {start stop : Nat}
    (h : items.drop start = part ++ rest) (hstart : start ≤ items.length)
    (hstop : stop = start + part.length) : slice items start stop = .ok part := by
  have hlength := length_of_drop h hstart
  rw [List.length_append] at hlength
  rw [slice_ok (by omega) (by omega), h, hstop, Nat.add_sub_cancel_left, List.take_left]

/-- A loop does not panic if no step of it does, and computes what the steps
compute. -/
theorem foldlM_ok {step : State → Item → Checked State} {next : State → Item → State}
    {I : State → Prop} {items : List Item}
    (hstep : ∀ s, I s → ∀ item ∈ items, step s item = .ok (next s item) ∧ I (next s item))
    {s : State} (hs : I s) :
    items.foldlM step s = .ok (items.foldl next s) ∧ I (items.foldl next s) := by
  induction items generalizing s with
  | nil => exact ⟨rfl, hs⟩
  | cons item items ih =>
      obtain ⟨hthis, hnext⟩ := hstep s hs item List.mem_cons_self
      have hrest := ih (fun s hs other hother =>
        hstep s hs other (List.mem_cons_of_mem _ hother)) hnext
      rw [List.foldlM_cons, hthis, List.foldl_cons]
      exact hrest

end Checked

/-- A program over a state: it may panic, fail with an error, or return. -/
def Proc (State Error Result : Type) : Type := State → Checked (Except Error Result × State)

namespace Proc

variable {State Error Result Next : Type}

instance : Monad (Proc State Error) where
  pure result := fun s => .ok (.ok result, s)
  bind program next := fun s =>
    match program s with
    | .error panic => .error panic
    | .ok (.error error, s') => .ok (.error error, s')
    | .ok (.ok result, s') => next result s'

def fail (error : Error) : Proc State Error Result := fun s => .ok (.error error, s)

def get : Proc State Error State := fun s => .ok (.ok s, s)

def set (state : State) : Proc State Error Unit := fun _ => .ok (.ok (), state)

/-- A computation that may panic but neither fails nor touches the state. -/
def lift (computation : Checked Result) : Proc State Error Result := fun s =>
  match computation with
  | .error panic => .error panic
  | .ok result => .ok (.ok result, s)

instance : MonadLift Checked (Proc State Error) where
  monadLift := lift

/-! Running a program. -/

variable {program : Proc State Error Result} {next : Result → Proc State Error Next} {s t : State}

theorem bind_run : (program >>= next) s =
    match program s with
    | .error panic => Except.error panic
    | .ok (.error error, s') => Except.ok (.error error, s')
    | .ok (.ok result, s') => next result s' := rfl

theorem bind_returns {result : Result} (h : program s = .ok (.ok result, t)) :
    (program >>= next) s = next result t := by
  rw [bind_run, h]

theorem bind_fails {error : Error} (h : program s = .ok (.error error, t)) :
    (program >>= next) s = .ok (.error error, t) := by
  rw [bind_run, h]

@[simp] theorem pure_run (result : Result) (s : State) :
    (pure result : Proc State Error Result) s = .ok (.ok result, s) := rfl

@[simp] theorem fail_run (error : Error) (s : State) :
    (fail error : Proc State Error Result) s = .ok (.error error, s) := rfl

@[simp] theorem get_bind (next : State → Proc State Error Next) (s : State) :
    (get >>= next) s = next s s := rfl

@[simp] theorem set_bind (state : State) (next : Unit → Proc State Error Next)
    (s : State) : (set state >>= next) s = next () state := rfl

theorem bind_assoc {Last : Type} (program : Proc State Error Result)
    (next : Result → Proc State Error Next) (last : Next → Proc State Error Last) :
    (program >>= next) >>= last = program >>= fun result => next result >>= last := by
  funext s
  simp only [bind_run]
  cases program s with
  | error panic => rfl
  | ok after =>
      obtain ⟨outcome, t⟩ := after
      cases outcome <;> rfl

theorem bind_congr {next' : Result → Proc State Error Next}
    (h : ∀ result, next result = next' result) : (program >>= next) = (program >>= next') := by
  obtain rfl : next = next' := funext h
  rfl

theorem lift_bind {computation : Checked Result} {result : Result} (h : computation = .ok result) :
    ((liftM computation : Proc State Error Result) >>= next) s = next result s := by
  subst h
  rfl

theorem lift_panics {computation : Checked Result} {panic : Panic}
    (h : computation = .error panic) :
    ((liftM computation : Proc State Error Result) >>= next) s = .error panic := by
  subst h
  rfl

theorem returned_of_lift {computation : Checked Result} {after : Next}
    (h : ((liftM computation : Proc State Error Result) >>= next) s = .ok (.ok after, t)) :
    ∃ result, computation = .ok result ∧ next result s = .ok (.ok after, t) := by
  cases hcomputation : computation with
  | error panic =>
      rw [lift_panics hcomputation] at h
      cases h
  | ok result =>
      rw [lift_bind hcomputation] at h
      exact ⟨result, rfl, h⟩

/-! Programs that do not panic. -/

/-- From this state the program returns a result with the first property, or
fails in a state with the second; it does not panic. -/
def Yields (program : Proc State Error Result) (s : State)
    (Q : Result → State → Prop) (R : State → Prop) : Prop :=
  ∃ outcome t, program s = .ok (outcome, t) ∧
    match outcome with
    | .ok result => Q result t
    | .error _ => R t

variable {Q : Result → State → Prop} {R : State → Prop}

theorem Yields.of_run {outcome : Except Error Result × State} (h : program s = .ok outcome)
    (houtcome : match outcome.1 with
      | .ok result => Q result outcome.2
      | .error _ => R outcome.2) : program.Yields s Q R :=
  ⟨outcome.1, outcome.2, h, houtcome⟩

theorem yields_pure {result : Result} (h : Q result s) :
    (pure result : Proc State Error Result).Yields s Q R := ⟨_, _, rfl, h⟩

theorem yields_fail {error : Error} (h : R s) :
    (fail error : Proc State Error Result).Yields s Q R := ⟨_, _, rfl, h⟩

/-- The rule of sequencing. -/
theorem Yields.bind {Q' : Next → State → Prop} (h : program.Yields s Q R)
    (hnext : ∀ result t, Q result t → (next result).Yields t Q' R) :
    (program >>= next).Yields s Q' R := by
  obtain ⟨outcome, t, hrun, houtcome⟩ := h
  cases outcome with
  | error error => exact ⟨_, _, bind_fails hrun, houtcome⟩
  | ok result =>
      obtain ⟨outcome', t', hrun', houtcome'⟩ := hnext result t houtcome
      exact ⟨outcome', t', (bind_returns hrun).trans hrun', houtcome'⟩

theorem Yields.mono {Q' : Result → State → Prop} {R' : State → Prop}
    (h : program.Yields s Q R) (hQ : ∀ result t, Q result t → Q' result t)
    (hR : ∀ t, R t → R' t) : program.Yields s Q' R' := by
  obtain ⟨outcome, t, hrun, houtcome⟩ := h
  refine ⟨outcome, t, hrun, ?_⟩
  cases outcome with
  | error error => exact hR t houtcome
  | ok result => exact hQ result t houtcome

end Proc

end EvertyDesk
