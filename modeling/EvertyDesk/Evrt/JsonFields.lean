import EvertyDesk.Lib.QuotedText
import EvertyDesk.Lib.TextSlices

/-!
JSON without a parser. A field's value follows the first place where its quoted name
stands, be that the name of a field or the text of an earlier value. Objects are put
together without escapes.
-/

namespace EvertyDesk.Evrt

/-- What is passed over between a field's name and its value. -/
def jsonGap (c : Char) : Bool := c == ' ' || c == ':' || c == '\t'

def jsonRest (s key : List Char) : Option (List Char) :=
  (afterFirst (marked '"' key) s).map (·.dropWhile jsonGap)

def jsonStrField (s key : List Char) : Option (List Char) :=
  match jsonRest s key with
  | some ('"' :: inner) => beforeFirst '"' inner
  | _ => none

/-- Digits that make a number below the limit. -/
def parseDigits (limit : Nat) (digits : List Char) : Option Nat :=
  if digits = [] then none
  else if Nat.ofDigitChars 10 digits 0 < limit then some (Nat.ofDigitChars 10 digits 0)
  else none

def jsonNumberField (limit : Nat) (s key : List Char) : Option Nat :=
  (jsonRest s key).bind fun rest => parseDigits limit (rest.takeWhile Char.isDigit)

def jsonU32Field (s key : List Char) : Option UInt32 :=
  (jsonNumberField (2 ^ 32) s key).map UInt32.ofNat

def decimal (n : Nat) : List Char := Nat.toDigits 10 n

theorem parseDigits_decimal {limit n : Nat} (h : n < limit) :
    parseDigits limit (decimal n) = some n := by
  rw [parseDigits, decimal, if_neg Nat.toDigits_ne_nil, Nat.ofDigitChars_ten_toDigits, if_pos h]

theorem isDigit_of_mem_decimal {n : Nat} {c : Char} (h : c ∈ decimal n) : c.isDigit = true :=
  Nat.isDigit_of_mem_toDigits (by decide) (by decide) h

theorem byteLength_decimal (n : UInt32) : byteLength (decimal n.toNat) ≤ 10 := by
  have hascii : ∀ c ∈ decimal n.toNat, c.toNat < 0x80 := by
    intro c hc
    have hdigit := isDigit_of_mem_decimal hc
    rw [Char.isDigit, Bool.and_eq_true, decide_eq_true_eq, decide_eq_true_eq] at hdigit
    exact Nat.lt_of_le_of_lt (UInt32.le_iff_toNat_le.mp hdigit.2) (by decide)
  rw [byteLength_ascii hascii]
  have hsmall : n.toNat < 10 ^ 10 := n.toNat_lt.trans (by decide)
  exact (Nat.length_toDigits_le_iff (by decide) (by decide)).mpr hsmall

theorem jsonGap_of_isDigit {c : Char} (h : c.isDigit = true) : jsonGap c = false := by
  unfold jsonGap
  by_contra hgap
  simp only [Bool.not_eq_false, Bool.or_eq_true, beq_iff_eq] at hgap
  obtain (rfl | rfl) | rfl := hgap <;> contradiction

theorem quote_notMem_decimal (n : Nat) : '"' ∉ decimal n := by
  intro h
  exact absurd (isDigit_of_mem_decimal h) (by decide)

section Fields

variable {key front : List Char} {pieces : List (List Char)}

theorem dropWhile_pieces (gap : List Char) (pieces : List (List Char)) :
    (['"'].intercalate (gap :: pieces)).dropWhile jsonGap =
      ['"'].intercalate (gap.dropWhile jsonGap :: pieces) := by
  cases pieces with
  | nil => rw [List.intercalate_singleton, List.intercalate_singleton]
  | cons next pieces =>
      rw [List.intercalate_cons_cons, List.intercalate_cons_cons, List.append_assoc,
        List.dropWhile_append]
      split
      next hempty =>
        rw [List.isEmpty_iff.mp hempty, List.singleton_append,
          List.dropWhile_cons_of_neg (by decide)]
        rfl
      next => rw [List.append_assoc]

theorem jsonRest_pieces (hkey : '"' ∉ key) (hpieces : ∀ piece ∈ pieces, '"' ∉ piece)
    (hfront : '"' ∉ front) :
    jsonRest (['"'].intercalate (front :: pieces)) key =
      (afterPiece key pieces).map fun rest => (['"'].intercalate rest).dropWhile jsonGap := by
  rw [jsonRest, afterFirst_pieces hkey hpieces hfront, Option.map_map]
  rfl

theorem mem_of_afterPiece {rest : List (List Char)} (h : afterPiece key pieces = some rest) :
    rest ≠ [] ∧ ∀ piece ∈ rest, piece ∈ pieces := by
  induction pieces with
  | nil => cases h
  | cons piece pieces ih =>
      cases pieces with
      | nil => cases h
      | cons next pieces =>
          rw [afterPiece] at h
          split at h
          · cases h
            exact ⟨List.cons_ne_nil _ _, fun _ h => List.mem_cons_of_mem _ h⟩
          · obtain ⟨hsome, hmem⟩ := ih h
            exact ⟨hsome, fun other hother => List.mem_cons_of_mem _ (hmem other hother)⟩

/-- The value of a field, of what stands behind its name. -/
def strValue : List (List Char) → Option (List Char)
  | gap :: value :: _ :: _ => if gap.all jsonGap then some value else none
  | _ => none

def numberValue (limit : Nat) : List (List Char) → Option Nat
  | gap :: _ => parseDigits limit ((gap.dropWhile jsonGap).takeWhile Char.isDigit)
  | [] => none

theorem strValue_pieces {gap : List Char} {rest : List (List Char)}
    (h : ∀ piece ∈ gap :: rest, '"' ∉ piece) :
    (match some (['"'].intercalate (gap.dropWhile jsonGap :: rest)) with
      | some ('"' :: inner) => beforeFirst '"' inner
      | _ => none) = strValue (gap :: rest) := by
  obtain ⟨hgap, hrest⟩ := List.forall_mem_cons.mp h
  cases hdrop : gap.dropWhile jsonGap with
  | nil =>
      have hall : gap.all jsonGap = true :=
        List.all_eq_true.mpr (List.dropWhile_eq_nil_iff.mp hdrop)
      cases rest with
      | nil => rfl
      | cons value more =>
          obtain ⟨hvalue, -⟩ := List.forall_mem_cons.mp hrest
          rw [List.intercalate_cons_cons]
          cases more with
          | nil =>
              rw [List.intercalate_singleton]
              exact beforeFirst_none hvalue
          | cons next more =>
              rw [List.intercalate_cons_cons, List.append_assoc value, strValue, if_pos hall]
              exact beforeFirst_clean hvalue _
  | cons c gap' =>
      have hc : c ∈ gap := (List.dropWhile_sublist jsonGap).subset (hdrop ▸ List.mem_cons_self)
      have hquote : c ≠ '"' := fun heq => hgap (heq ▸ hc)
      have hall : gap.all jsonGap = false := by
        by_contra hall
        rw [Bool.not_eq_false, List.all_eq_true] at hall
        rw [List.dropWhile_eq_nil_iff.mpr hall] at hdrop
        cases hdrop
      have hvalue : strValue (gap :: rest) = none := by
        unfold strValue
        split
        next heq =>
          obtain ⟨rfl, -⟩ := List.cons.inj heq
          rw [hall]
          rfl
        next => rfl
      rw [hvalue]
      cases rest with
      | nil =>
          rw [List.intercalate_singleton]
          split
          next heq => exact absurd (List.cons.inj (Option.some.inj heq)).1 hquote
          next => rfl
      | cons value more =>
          rw [List.intercalate_cons_cons, List.append_assoc, List.cons_append]
          split
          next heq => exact absurd (List.cons.inj (Option.some.inj heq)).1 hquote
          next => rfl

theorem jsonStrField_pieces (hkey : '"' ∉ key) (hpieces : ∀ piece ∈ pieces, '"' ∉ piece)
    (hfront : '"' ∉ front) :
    jsonStrField (['"'].intercalate (front :: pieces)) key =
      (afterPiece key pieces).bind strValue := by
  rw [jsonStrField, jsonRest_pieces hkey hpieces hfront]
  cases hrest : afterPiece key pieces with
  | none => rfl
  | some rest =>
      obtain ⟨hsome, hmem⟩ := mem_of_afterPiece hrest
      cases rest with
      | nil => exact absurd rfl hsome
      | cons gap rest =>
          rw [Option.map_some, Option.bind_some, dropWhile_pieces]
          exact strValue_pieces fun piece hpiece => hpieces piece (hmem piece hpiece)

theorem takeWhile_pieces (front : List Char) (pieces : List (List Char)) :
    (['"'].intercalate (front :: pieces)).takeWhile Char.isDigit =
      front.takeWhile Char.isDigit := by
  cases pieces with
  | nil => rw [List.intercalate_singleton]
  | cons next pieces =>
      rw [List.intercalate_cons_cons, List.append_assoc, List.takeWhile_append]
      split
      next hwhole =>
        rw [List.singleton_append, List.takeWhile_cons_of_neg (by decide), List.append_nil,
          (List.takeWhile_prefix Char.isDigit).eq_of_length hwhole]
      next => rfl

theorem jsonNumberField_pieces (limit : Nat) (hkey : '"' ∉ key)
    (hpieces : ∀ piece ∈ pieces, '"' ∉ piece) (hfront : '"' ∉ front) :
    jsonNumberField limit (['"'].intercalate (front :: pieces)) key =
      (afterPiece key pieces).bind (numberValue limit) := by
  rw [jsonNumberField, jsonRest_pieces hkey hpieces hfront]
  cases hrest : afterPiece key pieces with
  | none => rfl
  | some rest =>
      obtain ⟨hsome, -⟩ := mem_of_afterPiece hrest
      cases rest with
      | nil => exact absurd rfl hsome
      | cons gap rest =>
          rw [Option.map_some, Option.bind_some, Option.bind_some, dropWhile_pieces,
            takeWhile_pieces]
          rfl

end Fields

/-! Flat objects. -/

inductive JsonValue where
  | str (text : List Char)
  /-- A number, a truth value or null. -/
  | bare (text : List Char)
deriving DecidableEq

namespace JsonValue

def asStr : JsonValue → Option (List Char)
  | str text => some text
  | bare _ => none

def asNumber (limit : Nat) : JsonValue → Option Nat
  | str _ => none
  | bare text => parseDigits limit ((text.dropWhile jsonGap).takeWhile Char.isDigit)

def written : JsonValue → List Char
  | str text => text
  | bare text => text

end JsonValue

abbrev JsonObject := List (List Char × JsonValue)

namespace JsonObject

/-- What comes behind a field before the fields that are left. -/
def closing (rest : JsonObject) : Char := if rest.isEmpty then '\x7d' else ','

/-- What stands between the quotes, from the first of them on. -/
def pieces : JsonObject → List (List Char)
  | [] => []
  | (name, .str text) :: rest => name :: [':'] :: text :: [closing rest] :: pieces rest
  | (name, .bare text) :: rest => name :: (':' :: (text ++ [closing rest])) :: pieces rest

def text (object : JsonObject) : List Char := ['"'].intercalate (['\x7b'] :: object.pieces)

/-- The value that a name leads to. An earlier text that is the name leads to none. -/
def found (key : List Char) : JsonObject → Option JsonValue
  | [] => none
  | (name, value) :: rest =>
      if name = key then some value
      else if value = .str key then none
      else found key rest

/-- The values that are texts. -/
def texts (object : JsonObject) : List (List Char) := object.filterMap fun field => field.2.asStr

def Unquoted (object : JsonObject) : Prop := ∀ field ∈ object, '"' ∉ field.1 ∧ '"' ∉ field.2.written

variable {key : List Char} {object rest : JsonObject}

theorem closing_cases (rest : JsonObject) : closing rest = '\x7d' ∨ closing rest = ',' := by
  unfold closing
  split
  · exact .inl rfl
  · exact .inr rfl

theorem jsonGap_closing (rest : JsonObject) : jsonGap (closing rest) = false := by
  obtain h | h := closing_cases rest <;> rw [h] <;> rfl

theorem isDigit_closing (rest : JsonObject) : (closing rest).isDigit = false := by
  obtain h | h := closing_cases rest <;> rw [h] <;> rfl

theorem quote_ne_closing (rest : JsonObject) : '"' ≠ closing rest := by
  obtain h | h := closing_cases rest <;> rw [h] <;> decide

theorem Unquoted.pieces (h : object.Unquoted) : ∀ piece ∈ object.pieces, '"' ∉ piece := by
  induction object using JsonObject.pieces.induct with
  | case1 => exact fun _ hpiece => nomatch hpiece
  | case2 name text rest ih =>
      obtain ⟨⟨hname, htext⟩, hrest⟩ := List.forall_mem_cons.mp h
      simp only [JsonObject.pieces, List.forall_mem_cons]
      exact ⟨hname, by decide, htext, by simpa using quote_ne_closing rest, ih hrest⟩
  | case3 name text rest ih =>
      obtain ⟨⟨hname, htext⟩, hrest⟩ := List.forall_mem_cons.mp h
      simp only [JsonObject.pieces, List.forall_mem_cons]
      refine ⟨hname, ?_, ih hrest⟩
      have htext' : '"' ∉ text := htext
      simpa [htext'] using quote_ne_closing rest

/-- Names are words of letters, which no mark between two values is. -/
def IsName (key : List Char) : Prop := key.all Char.isAlpha = true

instance (key : List Char) : Decidable (IsName key) := inferInstanceAs (Decidable (_ = true))

theorem IsName.letter (h : IsName key) {c : Char} (hmem : c ∈ key) : c.isAlpha = true :=
  List.all_eq_true.mp h c hmem

theorem IsName.quote (h : IsName key) : '"' ∉ key := fun hmem =>
  absurd (h.letter hmem) (by decide)

theorem IsName.ne_colon (h : IsName key) (more : List Char) : ':' :: more ≠ key := by
  rintro rfl
  exact absurd (h.letter (c := ':') List.mem_cons_self) (by decide)

theorem IsName.ne_closing (h : IsName key) (rest : JsonObject) : [closing rest] ≠ key := by
  rintro rfl
  have hletter := h.letter List.mem_cons_self
  obtain hclosing | hclosing := closing_cases rest <;> rw [hclosing] at hletter <;>
    exact absurd hletter (by decide)

theorem strValue_gap {gap : List Char} (h : gap.all jsonGap = false) (more : List (List Char)) :
    strValue (gap :: more) = none := by
  unfold strValue
  split
  next heq =>
    obtain ⟨rfl, -⟩ := List.cons.inj heq
    rw [h]
    rfl
  next => rfl

theorem gap_closing (text : List Char) (rest : JsonObject) :
    (text ++ [closing rest]).all jsonGap = false := by
  rw [List.all_append, List.all_cons, jsonGap_closing, Bool.false_and, Bool.and_false]

/-- A number ends where the mark behind its value stands. -/
theorem digits_closing (text : List Char) (rest : JsonObject) :
    ((text ++ [closing rest]).dropWhile jsonGap).takeWhile Char.isDigit =
      (text.dropWhile jsonGap).takeWhile Char.isDigit := by
  have hend : [closing rest].takeWhile Char.isDigit = [] :=
    List.takeWhile_cons_of_neg (by simp [isDigit_closing])
  rw [List.dropWhile_append]
  split
  next hempty =>
    rw [List.isEmpty_iff.mp hempty, List.dropWhile_cons_of_neg (by simp [jsonGap_closing]), hend]
    rfl
  next =>
    rw [List.takeWhile_append]
    split
    next hwhole =>
      rw [hend, List.append_nil, (List.takeWhile_prefix Char.isDigit).eq_of_length hwhole]
    next => rfl

/-- What stands behind a name as it is searched for is the value that the name leads to. -/
theorem afterPiece_pieces {Value : Type*} {read : List (List Char) → Option Value}
    {value : JsonValue → Option Value} (hkey : IsName key)
    (hstr : ∀ text rest, read ([':'] :: text :: [closing rest] :: rest.pieces) = value (.str text))
    (hbare : ∀ text rest,
      read ((':' :: (text ++ [closing rest])) :: rest.pieces) = value (.bare text))
    (hnone : ∀ rest : JsonObject, read ([closing rest] :: rest.pieces) = none)
    (object : JsonObject) :
    (afterPiece key object.pieces).bind read = (found key object).bind value := by
  induction object using JsonObject.pieces.induct with
  | case1 => rfl
  | case2 name text rest ih =>
      rw [JsonObject.pieces, found]
      by_cases hname : name = key
      · rw [if_pos hname, afterPiece, if_pos hname]
        exact hstr text rest
      rw [if_neg hname, afterPiece_cons_of_ne hname, afterPiece_cons_of_ne (hkey.ne_colon [])]
      by_cases htext : text = key
      · rw [if_pos (congrArg JsonValue.str htext), afterPiece, if_pos htext]
        exact hnone rest
      · rw [if_neg fun h => htext (JsonValue.str.inj h), afterPiece_cons_of_ne htext,
          afterPiece_cons_of_ne (hkey.ne_closing rest), ih]
  | case3 name text rest ih =>
      rw [JsonObject.pieces, found]
      by_cases hname : name = key
      · rw [if_pos hname, afterPiece, if_pos hname]
        exact hbare text rest
      · rw [if_neg hname, if_neg JsonValue.noConfusion, afterPiece_cons_of_ne hname,
          afterPiece_cons_of_ne (hkey.ne_colon _), ih]

/-- A text that is read has no quote. -/
theorem quote_notMem_of_jsonStrField {s key value : List Char}
    (h : jsonStrField s key = some value) : '"' ∉ value := by
  unfold jsonStrField at h
  split at h
  · exact not_mem_of_beforeFirst h
  · cases h

theorem asNumber_decimal {limit n : Nat} (h : n < limit) :
    (JsonValue.bare (decimal n)).asNumber limit = some n := by
  have hdigits : (decimal n).takeWhile Char.isDigit = decimal n :=
    List.takeWhile_eq_self_iff.mpr fun c hc => isDigit_of_mem_decimal hc
  have hgap : (decimal n).dropWhile jsonGap = decimal n := by
    rw [List.dropWhile_eq_self_iff]
    intro hsome
    simpa using jsonGap_of_isDigit (isDigit_of_mem_decimal (List.getElem_mem hsome))
  rw [JsonValue.asNumber, hgap, hdigits, parseDigits_decimal h]

theorem jsonStrField_text (hkey : IsName key) (h : object.Unquoted) :
    jsonStrField object.text key = (found key object).bind JsonValue.asStr := by
  rw [text, jsonStrField_pieces hkey.quote h.pieces (by decide)]
  refine afterPiece_pieces hkey (fun _ _ => rfl) (fun text rest => ?_) (fun rest => ?_) object
  · apply strValue_gap
    rw [List.all_cons, gap_closing, Bool.and_false]
  · exact strValue_gap (gap_closing [] rest) _

theorem jsonNumberField_text (limit : Nat) (hkey : IsName key) (h : object.Unquoted) :
    jsonNumberField limit object.text key = (found key object).bind (JsonValue.asNumber limit) := by
  rw [text, jsonNumberField_pieces limit hkey.quote h.pieces (by decide)]
  refine afterPiece_pieces hkey (fun _ _ => rfl) (fun text rest => ?_) (fun rest => ?_) object
  · exact congrArg (parseDigits limit) (digits_closing text rest)
  · exact congrArg (parseDigits limit) (digits_closing [] rest)

/-- A field is found unless its name is a text in front of it. -/
theorem found_at {value : JsonValue} {n : Nat} (hfield : object[n]? = some (key, value))
    (hfirst : ∀ field ∈ object.take n, field.1 ≠ key) :
    found key object = if key ∈ texts (object.take n) then none else some value := by
  induction object generalizing n with
  | nil => cases hfield
  | cons first object ih =>
      obtain ⟨name, other⟩ := first
      cases n with
      | zero =>
          cases hfield
          exact if_pos rfl
      | succ n =>
          rw [List.take_succ_cons, List.forall_mem_cons] at hfirst
          obtain ⟨hname, hlater⟩ := hfirst
          rw [found, if_neg hname, List.take_succ_cons, ih hfield hlater]
          cases other with
          | bare text => exact if_neg JsonValue.noConfusion
          | str text =>
              change _ = if key ∈ text :: texts (object.take n) then none else some value
              by_cases htext : text = key
              · rw [if_pos (congrArg JsonValue.str htext), if_pos (htext ▸ List.mem_cons_self)]
              · rw [if_neg fun h => htext (JsonValue.str.inj h)]
                apply ite_congr _ (fun _ => rfl) fun _ => rfl
                rw [List.mem_cons, or_iff_right fun h => htext h.symm]

theorem byteLength_pieces_le {n : Nat}
    (h : ∀ field ∈ object, byteLength field.1 + byteLength field.2.written ≤ n)
    (front : List Char) :
    byteLength (['"'].intercalate (front :: object.pieces)) ≤
      byteLength front + object.length * (n + 6) := by
  have hquote : byteLength ['"'] = 1 := rfl
  have hcolon : byteLength [':'] = 1 := rfl
  have hclosing : ∀ rest, byteLength [closing rest] = 1 := by
    intro rest
    obtain hrest | hrest := closing_cases rest <;> rw [hrest] <;> rfl
  induction object using JsonObject.pieces.induct generalizing front with
  | case1 => simp [JsonObject.pieces]
  | case2 name text rest ih =>
      obtain ⟨hfield, hrest⟩ := List.forall_mem_cons.mp h
      have hlater := ih hrest [closing rest]
      simp only [JsonValue.written] at hfield
      simp only [JsonObject.pieces, List.intercalate_cons_cons, byteLength_append, hquote, hcolon,
        List.length_cons, Nat.succ_mul]
      rw [hclosing] at hlater
      omega
  | case3 name text rest ih =>
      obtain ⟨hfield, hrest⟩ := List.forall_mem_cons.mp h
      have hlater := ih hrest (':' :: (text ++ [closing rest]))
      have hvalue : byteLength (':' :: (text ++ [closing rest])) = byteLength text + 2 := by
        rw [← List.singleton_append, byteLength_append, byteLength_append, hcolon, hclosing]
        omega
      simp only [JsonValue.written] at hfield
      simp only [JsonObject.pieces, List.intercalate_cons_cons, byteLength_append, hquote,
        List.length_cons, Nat.succ_mul]
      omega

/-- Six characters stand around a name and its text. -/
theorem byteLength_text_le {n : Nat}
    (h : ∀ field ∈ object, byteLength field.1 + byteLength field.2.written ≤ n) :
    byteLength object.text ≤ 1 + object.length * (n + 6) := byteLength_pieces_le h ['\x7b']

section Reading

variable {value : JsonValue} {n : Nat}

theorem jsonStrField_at {text : List Char} (hkey : IsName key) (h : object.Unquoted)
    (hfield : object[n]? = some (key, .str text))
    (hfirst : ∀ field ∈ object.take n, field.1 ≠ key) (missing : List Char) :
    (jsonStrField object.text key).getD missing =
      if key ∈ texts (object.take n) then missing else text := by
  rw [jsonStrField_text hkey h, found_at hfield hfirst]
  split <;> rfl

theorem jsonU32Field_at {number : UInt32} (hkey : IsName key) (h : object.Unquoted)
    (hfield : object[n]? = some (key, .bare (decimal number.toNat)))
    (hfirst : ∀ field ∈ object.take n, field.1 ≠ key) (missing : UInt32) :
    (jsonU32Field object.text key).getD missing =
      if key ∈ texts (object.take n) then missing else number := by
  rw [jsonU32Field, jsonNumberField_text _ hkey h, found_at hfield hfirst]
  split
  · rfl
  · rw [Option.bind_some, asNumber_decimal number.toNat_lt, Option.map_some, UInt32.ofNat_toNat]
    rfl

end Reading

end JsonObject

end EvertyDesk.Evrt
