import EvertyDesk.Host.VmBridge
import EvertyDesk.Lib.Machine
import Mathlib.Tactic.SplitIfs

/-!
Keys for a Hyper-V machine. A character is pressed as the key that it is on, and Shift is
to come from the character alone; but control keys are pressed and released as they come,
and Shift is one of them.

The letters that are upper case, and the lower case of a letter, are those of Unicode; the
tables are parameters. What is noted for the display is left out.
-/

namespace EvertyDesk.Host

structure UnicodeTables where
  isUppercase : Char → Bool
  toLowercase : Char → List Char

inductive KeyUnion where
  | controlKey (ck : Int)
  | unicode (ch : UInt32)
deriving DecidableEq, Repr

structure KeyEvent where
  down : Bool
  press : Bool
  union : Option KeyUnion
  modifiers : List Int
deriving DecidableEq, Repr

def vkShift : UInt32 := 0x10

/-- The virtual key of a control key. -/
def controlKeyScancode : Int → Option UInt32
  | 1 => some 0x12
  | 2 => some 0x08
  | 3 => some 0x14
  | 4 => some 0x11
  | 5 => some 0x2E
  | 6 => some 0x28
  | 7 => some 0x23
  | 8 => some 0x1B
  | 9 => some 0x70
  | 10 => some 0x79
  | 11 => some 0x7A
  | 12 => some 0x7B
  | 13 => some 0x71
  | 14 => some 0x72
  | 15 => some 0x73
  | 16 => some 0x74
  | 17 => some 0x75
  | 18 => some 0x76
  | 19 => some 0x77
  | 20 => some 0x78
  | 21 => some 0x24
  | 22 => some 0x25
  | 23 => some 0x5B
  | 25 => some 0x22
  | 26 => some 0x21
  | 27 => some 0x0D
  | 28 => some 0x27
  | 29 => some 0x10
  | 30 => some 0x20
  | 31 => some 0x09
  | 32 => some 0x26
  | 58 => some 0x2D
  | 72 => some 0x0D
  | _ => none

/-- The characters beside the letters that are above another one on their key. -/
def shiftedSigns : List Char :=
  ['!', '@', '#', '$', '%', '^', '&', '*', '(', ')', '_', '+', '{', '}', ':', '\x22', '~', '<',
    '>', '?', '|']

def plainSigns : List Char :=
  ['-', '=', '[', ']', ';', '\x27', '\x60', ',', '.', '/', '\x5c', ' ', '\t']

def asciiScancode (c : Char) : Option UInt32 :=
  if 'a' ≤ c ∧ c ≤ 'z' ∨ 'A' ≤ c ∧ c ≤ 'Z' then some c.toUpper.val
  else if '0' ≤ c ∧ c ≤ '9' then some c.val
  else match c with
  | ' ' => some 0x20
  | '\t' => some 0x09
  | '!' => some 0x31
  | '@' => some 0x32
  | '#' => some 0x33
  | '$' => some 0x34
  | '%' => some 0x35
  | '^' => some 0x36
  | '&' => some 0x37
  | '*' => some 0x38
  | '(' => some 0x39
  | ')' => some 0x30
  | '-' | '_' => some 0xBD
  | '=' | '+' => some 0xBB
  | '[' | '{' => some 0xDB
  | ']' | '}' => some 0xDD
  | ';' | ':' => some 0xBA
  | '\x27' | '\x22' => some 0xDE
  | '\x60' | '~' => some 0xC0
  | ',' | '<' => some 0xBC
  | '.' | '>' => some 0xBE
  | '/' | '?' => some 0xBF
  | '\x5c' | '|' => some 0xDC
  | _ => none

/-- The key at the place of a Russian letter. -/
def jcukenKey : Char → Option UInt32
  | 'й' => some 0x51
  | 'ц' => some 0x57
  | 'у' => some 0x45
  | 'к' => some 0x52
  | 'е' => some 0x54
  | 'н' => some 0x59
  | 'г' => some 0x55
  | 'ш' => some 0x49
  | 'щ' => some 0x4F
  | 'з' => some 0x50
  | 'х' => some 0xDB
  | 'ъ' => some 0xDD
  | 'ф' => some 0x41
  | 'ы' => some 0x53
  | 'в' => some 0x44
  | 'а' => some 0x46
  | 'п' => some 0x47
  | 'р' => some 0x48
  | 'о' => some 0x4A
  | 'л' => some 0x4B
  | 'д' => some 0x4C
  | 'ж' => some 0xBA
  | 'э' => some 0xDE
  | 'я' => some 0x5A
  | 'ч' => some 0x58
  | 'с' => some 0x43
  | 'м' => some 0x56
  | 'и' => some 0x42
  | 'т' => some 0x4E
  | 'ь' => some 0x4D
  | 'б' => some 0xBC
  | 'ю' => some 0xBE
  | _ => none

def charFromU32 (ch : UInt32) : Option Char :=
  if h : ch.isValidChar then some ⟨ch, h⟩ else none

def isAsciiGraphic (c : Char) : Bool := '!' ≤ c && c ≤ '~'

namespace UnicodeTables

variable (tables : UnicodeTables)

def needsShift (c : Char) : Bool :=
  if 'A' ≤ c ∧ c ≤ 'Z' then true
  else if 'a' ≤ c ∧ c ≤ 'z' then false
  else if c ∈ shiftedSigns then true
  else if '0' ≤ c ∧ c ≤ '9' then false
  else if c ∈ plainSigns then false
  else tables.isUppercase c

def cyrillicToVk (c : Char) : Option UInt32 :=
  match tables.toLowercase c with
  | [] => none
  | lower :: _ => jcukenKey lower

/-- The key of a character. -/
def vkOf (c : Char) : Option UInt32 :=
  match asciiScancode c with
  | some vk => some vk
  | none => tables.cyrillicToVk c

end UnicodeTables

namespace KeyEvent

variable (ev : KeyEvent)

def mods : List UInt32 := ev.modifiers.filterMap controlKeyScancode

def nonShiftMods : List UInt32 := ev.mods.filter (· ≠ vkShift)

/-- What comes before the key of a character. -/
def beforeKey (shiftNeeded : Bool) : List HyperVCmd :=
  ev.nonShiftMods.map .pressKey ++ if shiftNeeded then [.pressKey vkShift] else []

def afterKey (shiftNeeded : Bool) : List HyperVCmd :=
  (if shiftNeeded then [.releaseKey vkShift] else []) ++ ev.nonShiftMods.reverse.map .releaseKey

end KeyEvent

/-- The commands that an event is turned into. -/
def dispatchKey (tables : UnicodeTables) (ev : KeyEvent) : List HyperVCmd :=
  match ev.union with
  | some (.controlKey ck) =>
      match controlKeyScancode ck with
      | none => []
      | some scan =>
          if ev.press then
            ev.mods.map .pressKey ++ [.pressKey scan, .releaseKey scan] ++
              ev.mods.reverse.map .releaseKey
          else if ev.down then [.pressKey scan]
          else [.releaseKey scan]
  | some (.unicode ch) =>
      if ch = 0 then []
      else match charFromU32 ch with
      | none => []
      | some c =>
          if ¬ (ev.press || ev.down) then []
          else match tables.vkOf c with
          | some vk =>
              ev.beforeKey (tables.needsShift c) ++ [.pressKey vk, .releaseKey vk] ++
                ev.afterKey (tables.needsShift c)
          | none => if isAsciiGraphic c then [.typeText c.toString] else []
  | none => []

/-! The keyboard of the machine. -/

/-- The keys that are held in the machine. -/
abbrev VmKeys := UInt32 → Bool

namespace VmKeys

def released : VmKeys := fun _ => false

def after (keys : VmKeys) : HyperVCmd → VmKeys
  | .pressKey vk => Function.update keys vk true
  | .releaseKey vk => Function.update keys vk false
  | _ => keys

def afterAll (keys : VmKeys) (cmds : List HyperVCmd) : VmKeys := cmds.foldl after keys

end VmKeys

/-- An event, and whether there is a session to send its commands to. -/
structure RoutedKey where
  ready : Bool
  ev : KeyEvent
deriving DecidableEq, Repr

def RoutedKey.commands (tables : UnicodeTables) (key : RoutedKey) : List HyperVCmd :=
  if key.ready then dispatchKey tables key.ev else []

/-- The machine's keyboard under the events, with the commands that it gets for each. -/
def vmKeyboard (tables : UnicodeTables) : Machine VmKeys RoutedKey (List HyperVCmd) where
  step keys key := (keys.afterAll (key.commands tables), key.commands tables)

/-- The character that an event types by its key, and the key. -/
def RoutedKey.character (tables : UnicodeTables) (key : RoutedKey) : Option (Char × UInt32) :=
  match key.ev.union with
  | some (.unicode ch) =>
      if key.ready ∧ ch ≠ 0 ∧ (key.ev.press || key.ev.down) then
        (charFromU32 ch).bind fun c => (tables.vkOf c).map fun vk => (c, vk)
      else none
  | _ => none

/-- What makes an event type a character by its key. -/
theorem character_cases {tables : UnicodeTables} {key : RoutedKey} {c : Char} {vk : UInt32}
    (h : key.character tables = some (c, vk)) :
    ∃ ch, key.ev.union = some (.unicode ch) ∧ key.ready = true ∧ ch ≠ 0 ∧
      (key.ev.press || key.ev.down) = true ∧ charFromU32 ch = some c ∧
      tables.vkOf c = some vk := by
  unfold RoutedKey.character at h
  split at h
  next ch hunion =>
    split_ifs at h with hhandled
    obtain ⟨hready, hch, hpressed⟩ := hhandled
    obtain ⟨c', hc, hvk⟩ := Option.bind_eq_some_iff.mp h
    obtain ⟨vk', hvk', hpair⟩ := Option.map_eq_some_iff.mp hvk
    obtain ⟨rfl, rfl⟩ := Prod.mk.inj hpair
    exact ⟨ch, hunion, hready, hch, hpressed, hc, hvk'⟩
  next => cases h

theorem commands_of_character {tables : UnicodeTables} {key : RoutedKey} {c : Char}
    {vk : UInt32} (h : key.character tables = some (c, vk)) :
    key.commands tables = key.ev.beforeKey (tables.needsShift c) ++
      [.pressKey vk, .releaseKey vk] ++ key.ev.afterKey (tables.needsShift c) := by
  obtain ⟨ch, hunion, hready, hch, hpressed, hc, hvk⟩ := character_cases h
  rw [RoutedKey.commands, if_pos hready]
  simp only [dispatchKey, hunion, hch, hc, hvk, hpressed, if_false, not_true_eq_false]

/-- When the key of a character goes down, Shift is held if and only if the character
needs it. -/
def ShiftRight (tables : UnicodeTables) (keys : VmKeys) (key : RoutedKey) : Prop :=
  ∀ c vk, key.character tables = some (c, vk) →
    keys.afterAll (key.ev.beforeKey (tables.needsShift c)) vkShift = tables.needsShift c

/-- What an event leaves Shift at, if it presses or releases it. -/
def RoutedKey.shiftEdge (tables : UnicodeTables) (key : RoutedKey) : Option Bool :=
  match key.ev.union with
  | some (.controlKey ck) =>
      match controlKeyScancode ck with
      | none => none
      | some scan =>
          if ¬ key.ready then none
          else if key.ev.press then
            if scan = vkShift ∨ vkShift ∈ key.ev.mods then some false else none
          else if scan = vkShift then some key.ev.down
          else none
  | _ =>
      match key.character tables with
      | some (c, _) => if tables.needsShift c then some false else none
      | none => none

/-! What the commands do to one key. -/

section

variable {keys : VmKeys}

theorem afterAll_append (cmds rest : List HyperVCmd) :
    keys.afterAll (cmds ++ rest) = (keys.afterAll cmds).afterAll rest := List.foldl_append

theorem afterAll_cons (cmd : HyperVCmd) (cmds : List HyperVCmd) :
    keys.afterAll (cmd :: cmds) = (keys.after cmd).afterAll cmds := rfl

theorem afterAll_pressKeys (keys : VmKeys) (pressed : List UInt32) (vk : UInt32) :
    keys.afterAll (pressed.map .pressKey) vk = (decide (vk ∈ pressed) || keys vk) := by
  induction pressed generalizing keys with
  | nil => simp [VmKeys.afterAll]
  | cons first pressed ih =>
      rw [List.map_cons, afterAll_cons, ih, VmKeys.after]
      by_cases hfirst : vk = first
      · subst hfirst
        simp
      · simp [hfirst]

theorem afterAll_releaseKeys (lifted : List UInt32) (vk : UInt32) :
    keys.afterAll (lifted.map .releaseKey) vk = (!decide (vk ∈ lifted) && keys vk) := by
  induction lifted generalizing keys with
  | nil => simp [VmKeys.afterAll]
  | cons first lifted ih =>
      rw [List.map_cons, afterAll_cons, ih, VmKeys.after]
      by_cases hfirst : vk = first
      · subst hfirst
        simp
      · simp [hfirst]

/-- A key that is pressed and released again. -/
theorem afterAll_stroke (pressed vk : UInt32) :
    keys.afterAll [.pressKey pressed, .releaseKey pressed] vk =
      (decide (vk ≠ pressed) && keys vk) := by
  rw [afterAll_cons, afterAll_cons, VmKeys.after, VmKeys.after]
  by_cases hsame : vk = pressed
  · subst hsame
    simp [VmKeys.afterAll]
  · simp [VmKeys.afterAll, hsame]

end

theorem val_le {c d : Char} (h : c ≤ d) : c.val.toNat ≤ d.val.toNat := h

/-- The keys of the letters come after all control keys. -/
theorem toUpper_ne_shift {c : Char} (h : 'a' ≤ c ∧ c ≤ 'z' ∨ 'A' ≤ c ∧ c ≤ 'Z') :
    c.toUpper.val ≠ vkShift := by
  intro heq
  have hnumber : c.toUpper.val.toNat = 16 := congrArg UInt32.toNat heq
  unfold Char.toUpper at hnumber
  split at hnumber
  next hlower =>
    have hlow : 97 ≤ c.val.toNat := hlower.1
    have hhigh : c.val.toNat ≤ 122 := hlower.2
    rw [UInt32.toNat_add] at hnumber
    have hshift : ('A'.val - 'a'.val).toNat = 4294967264 := rfl
    omega
  next hother =>
    rcases h with hlower | hupper
    · exact hother hlower
    · have hlow : 65 ≤ c.val.toNat := val_le hupper.1
      omega

theorem asciiScancode_ne_shift (c : Char) : asciiScancode c ≠ some vkShift := by
  unfold asciiScancode
  split_ifs with hletter hdigit
  · simpa using toUpper_ne_shift hletter
  · intro heq
    have hnumber : c.val.toNat = 16 := congrArg UInt32.toNat (Option.some.inj heq)
    have hlow : 48 ≤ c.val.toNat := val_le hdigit.1
    omega
  · split <;> simp [vkShift]

theorem jcukenKey_ne_shift (c : Char) : jcukenKey c ≠ some vkShift := by
  unfold jcukenKey
  split <;> simp [vkShift]

theorem vkOf_ne_shift {tables : UnicodeTables} {c : Char} {vk : UInt32}
    (h : tables.vkOf c = some vk) : vk ≠ vkShift := by
  rintro rfl
  unfold UnicodeTables.vkOf at h
  cases hascii : asciiScancode c with
  | some vk =>
      rw [hascii] at h
      exact asciiScancode_ne_shift c (hascii.trans h)
  | none =>
      rw [hascii] at h
      simp only [UnicodeTables.cyrillicToVk] at h
      split at h
      · cases h
      · exact jcukenKey_ne_shift _ h

/-! Shift over whole runs. -/

section

variable {tables : UnicodeTables} {keys : VmKeys} {key : RoutedKey}

theorem shift_not_mem_nonShiftMods (ev : KeyEvent) : vkShift ∉ ev.nonShiftMods := by
  simp [KeyEvent.nonShiftMods]

theorem beforeKey_shift (ev : KeyEvent) (shiftNeeded : Bool) :
    keys.afterAll (ev.beforeKey shiftNeeded) vkShift = (shiftNeeded || keys vkShift) := by
  have hmods := afterAll_pressKeys keys ev.nonShiftMods vkShift
  rw [decide_eq_false (shift_not_mem_nonShiftMods ev), Bool.false_or] at hmods
  rw [KeyEvent.beforeKey, afterAll_append]
  cases shiftNeeded with
  | false => exact hmods
  | true => simp [VmKeys.afterAll, VmKeys.after]

theorem afterKey_shift (ev : KeyEvent) (shiftNeeded : Bool) :
    keys.afterAll (ev.afterKey shiftNeeded) vkShift = (!shiftNeeded && keys vkShift) := by
  have hmods : ∀ keys : VmKeys,
      keys.afterAll (ev.nonShiftMods.reverse.map .releaseKey) vkShift = keys vkShift := by
    intro keys
    rw [afterAll_releaseKeys]
    simp [shift_not_mem_nonShiftMods ev]
  rw [KeyEvent.afterKey, afterAll_append, hmods]
  cases shiftNeeded <;> simp [VmKeys.afterAll, VmKeys.after]

/-- Shift is right for an event unless it is held for a character that is to be without
it. -/
theorem shiftRight_iff : ShiftRight tables keys key ↔
    ∀ c vk, key.character tables = some (c, vk) → tables.needsShift c = false →
      keys vkShift = false := by
  refine forall_congr' fun c => forall_congr' fun vk => imp_congr_right fun _ => ?_
  rw [beforeKey_shift]
  cases tables.needsShift c <;> simp

theorem commands_shift_of_character {c : Char} {vk : UInt32}
    (h : key.character tables = some (c, vk)) :
    keys.afterAll (key.commands tables) vkShift = (!tables.needsShift c && keys vkShift) := by
  obtain ⟨ch, -, -, -, -, -, hvk⟩ := character_cases h
  have hkey : vk ≠ vkShift := vkOf_ne_shift hvk
  rw [commands_of_character h, afterAll_append, afterAll_append, afterKey_shift,
    afterAll_stroke, beforeKey_shift, decide_eq_true hkey.symm]
  cases tables.needsShift c <;> simp

/-- Without a key for it a character is typed as text, if at all. -/
theorem commands_of_no_character {ch : UInt32} (hunion : key.ev.union = some (.unicode ch))
    (h : key.character tables = none) : keys.afterAll (key.commands tables) = keys := by
  unfold RoutedKey.commands
  by_cases hready : key.ready = true
  · rw [if_pos hready]
    unfold dispatchKey
    simp only [hunion]
    by_cases hzero : ch = 0
    · rw [if_pos hzero]
      rfl
    · rw [if_neg hzero]
      cases hc : charFromU32 ch with
      | none => rfl
      | some c =>
          by_cases hpressed : (key.ev.press || key.ev.down) = true
          · have hvk : tables.vkOf c = none := by
              simpa [RoutedKey.character, hunion, hready, hpressed, hc, hzero] using h
            simp only [hvk]
            split_ifs <;> rfl
          · simp only [hpressed]
            rfl
  · rw [if_neg hready]
    rfl

theorem control_shift {ck : Int} (hunion : key.ev.union = some (.controlKey ck)) :
    keys.afterAll (key.commands tables) vkShift = (key.shiftEdge tables).getD (keys vkShift) := by
  unfold RoutedKey.commands RoutedKey.shiftEdge dispatchKey
  simp only [hunion]
  cases hscan : controlKeyScancode ck with
  | none => split_ifs <;> rfl
  | some scan =>
      cases hready : key.ready with
      | false => rfl
      | true =>
          simp only [if_true, not_true_eq_false, if_false]
          cases hpress : key.ev.press with
          | true =>
              simp only [if_true]
              rw [afterAll_append, afterAll_append, afterAll_releaseKeys, afterAll_stroke,
                afterAll_pressKeys]
              by_cases hself : scan = vkShift
              · simp [hself]
              · by_cases hmods : vkShift ∈ key.ev.mods
                · simp [hmods]
                · simp [hself, hmods, Ne.symm hself]
          | false =>
              simp only [Bool.false_eq_true, if_false]
              by_cases hself : scan = vkShift
              · subst hself
                cases key.ev.down <;> simp [VmKeys.afterAll, VmKeys.after]
              · cases key.ev.down <;>
                  simp [VmKeys.afterAll, VmKeys.after, hself, Ne.symm hself]

/-- What an event does to Shift. -/
theorem commands_shift : keys.afterAll (key.commands tables) vkShift =
    (key.shiftEdge tables).getD (keys vkShift) := by
  cases hunion : key.ev.union with
  | none =>
      have hcommands : key.commands tables = [] := by
        simp [RoutedKey.commands, dispatchKey, hunion]
      have hedge : key.shiftEdge tables = none := by
        simp [RoutedKey.shiftEdge, RoutedKey.character, hunion]
      rw [hcommands, hedge]
      rfl
  | some union =>
      cases union with
      | controlKey ck => exact control_shift hunion
      | unicode ch =>
          cases hcharacter : key.character tables with
          | none =>
              rw [commands_of_no_character hunion hcharacter]
              simp [RoutedKey.shiftEdge, hunion, hcharacter]
          | some pair =>
              rw [commands_shift_of_character hcharacter]
              simp only [RoutedKey.shiftEdge, hunion, hcharacter]
              cases tables.needsShift pair.1 <;> simp

theorem run_shift (inputs : List RoutedKey) :
    (vmKeyboard tables).run keys inputs vkShift =
      ((inputs.filterMap (RoutedKey.shiftEdge tables)).getLast?).getD (keys vkShift) := by
  induction inputs generalizing keys with
  | nil => rfl
  | cons key inputs ih =>
      have hkey : ((vmKeyboard tables).step keys key).1 vkShift =
          (key.shiftEdge tables).getD (keys vkShift) := commands_shift
      rw [Machine.run_cons, ih, hkey]
      cases hedge : key.shiftEdge tables with
      | none => rw [List.filterMap_cons_none hedge, Option.getD_none]
      | some held =>
          rw [List.filterMap_cons_some hedge, List.getLast?_cons, Option.getD_some,
            Option.getD_some]

/-- In every run Shift is right for every character exactly when the last thing done to
Shift before a character that is to be without it was not to press it alone. -/
theorem shiftRight_along_iff (tables : UnicodeTables) (inputs : List RoutedKey) :
    (vmKeyboard tables).Along (ShiftRight tables) VmKeys.released inputs ↔
      ∀ before key after, inputs = before ++ key :: after →
        ∀ c vk, key.character tables = some (c, vk) → tables.needsShift c = false →
          (before.filterMap (RoutedKey.shiftEdge tables)).getLast? ≠ some true := by
  rw [Machine.along_iff]
  refine forall_congr' fun before => forall_congr' fun key => forall_congr' fun after =>
    imp_congr_right fun _ => ?_
  rw [shiftRight_iff]
  refine forall_congr' fun c => forall_congr' fun vk => imp_congr_right fun _ =>
    imp_congr_right fun _ => ?_
  rw [run_shift]
  cases (before.filterMap (RoutedKey.shiftEdge tables)).getLast? with
  | none => simp [VmKeys.released]
  | some held => simp

end

/-! Shift goes down as a control key, and its release is lost. -/

def asciiTables : UnicodeTables where
  isUppercase := Char.isUpper
  toLowercase c := [c.toLower]

def shiftDown : RoutedKey where
  ready := true
  ev := { down := true, press := false, union := some (.controlKey 29), modifiers := [] }

def smallLetterA : RoutedKey where
  ready := true
  ev := { down := false, press := true, union := some (.unicode 97), modifiers := [] }

/-- The letter is pressed with Shift. -/
theorem shift_held_for_small_letter :
    ¬ (vmKeyboard asciiTables).Along (ShiftRight asciiTables) VmKeys.released
      [shiftDown, smallLetterA] := by
  rintro ⟨_, hletter, _⟩
  have hheld := hletter 'a' 0x41 (by decide)
  revert hheld
  decide

end EvertyDesk.Host
