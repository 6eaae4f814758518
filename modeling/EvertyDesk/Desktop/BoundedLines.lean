import EvertyDesk.Lib.Utf8
import Mathlib.Data.List.Basic
import Mathlib.Algebra.Order.Group.Nat

/-!
Lines of a stream from an untrusted peer. A reader hands the stream over in pieces of its
own choice; a line is put together in a buffer that may not get longer than a limit.
-/

namespace EvertyDesk.Desktop

def newline : UInt8 := 0x0A

def carriageReturn : UInt8 := 0x0D

/-- A stream that does not fail, and is read in pieces. -/
structure BufRead (State : Type) where
  fillBuf : State → List UInt8 × State
  consume : State → Nat → State
  /-- What has not been consumed. -/
  rest : State → List UInt8
  rest_fillBuf : ∀ s, rest (fillBuf s).2 = rest s
  fillBuf_front : ∀ s, (fillBuf s).1 <+: rest s
  fillBuf_empty : ∀ s, (fillBuf s).1 = [] → rest s = []
  rest_consume : ∀ s n, n ≤ (fillBuf s).1.length → rest (consume (fillBuf s).2 n) = (rest s).drop n

inductive LineError where
  | exceeds (maxBytes : Nat)
  | invalidUtf8
deriving DecidableEq, Repr

abbrev LineResult := Except LineError (Option (List Char))

/-- One call. -/
structure ReadLine (State : Type) where
  result : LineResult
  state : State
  /-- How long the buffer has been. The code does not keep it. -/
  sizes : List Nat

variable {State : Type}

def ReadLine.after (size : Nat) (read : ReadLine State) : ReadLine State :=
  { read with sizes := size :: read.sizes }

def finishLine (encoded : List UInt8) : LineResult :=
  let encoded := if encoded.getLast? = some carriageReturn then encoded.dropLast else encoded
  match decodeUtf8 encoded with
  | some text => .ok (some text)
  | none => .error .invalidUtf8

section Source

variable (reader : BufRead State) (maxBytes : Nat)

theorem rest_consume_lt {s : State} {n : Nat} (hpos : 0 < n)
    (hle : n ≤ (reader.fillBuf s).1.length) :
    (reader.rest (reader.consume (reader.fillBuf s).2 n)).length < (reader.rest s).length := by
  have hfront := (reader.fillBuf_front s).length_le
  rw [reader.rest_consume s n hle, List.length_drop]
  omega

def readLoop (encoded : List UInt8) (s : State) : ReadLine State :=
  let available := (reader.fillBuf s).1
  if _h : available = [] then
    ⟨if encoded = [] then .ok none else finishLine encoded, (reader.fillBuf s).2, []⟩
  else
    match available.idxOf? newline with
    | some position =>
        if maxBytes < encoded.length + position then
          ⟨.error (.exceeds maxBytes), (reader.fillBuf s).2, []⟩
        else
          let encoded := encoded ++ available.take position
          ⟨finishLine encoded, reader.consume (reader.fillBuf s).2 (position + 1), [encoded.length]⟩
    | none =>
        if maxBytes < encoded.length + available.length then
          ⟨.error (.exceeds maxBytes), (reader.fillBuf s).2, []⟩
        else
          let encoded := encoded ++ available
          (readLoop encoded (reader.consume (reader.fillBuf s).2 available.length)).after
            encoded.length
termination_by (reader.rest s).length
decreasing_by exact rest_consume_lt reader (List.length_pos_iff.mpr ‹_›) le_rfl

def readBoundedLine (s : State) : ReadLine State := (readLoop reader maxBytes [] s).after 0

/-- This many calls, up to the first error. -/
def readLines : Nat → State → List (ReadLine State)
  | 0, _ => []
  | calls + 1, s =>
      let read := readBoundedLine reader maxBytes s
      match read.result with
      | .ok _ => read :: readLines calls read.state
      | .error _ => [read]

end Source

/-! What the calls are to return. -/

/-- What follows the last line break is a line if there is anything. -/
def linesOf (stream : List UInt8) : List (List UInt8) :=
  let pieces := stream.splitOn newline
  if pieces.getLast? = some [] then pieces.dropLast else pieces

def withoutCarriageReturn (text : List Char) : List Char :=
  if text.getLast? = some '\r' then text.dropLast else text

def lineText (maxBytes : Nat) (line : List UInt8) : Except LineError (List Char) :=
  if maxBytes < line.length then .error (.exceeds maxBytes)
  else
    match decodeUtf8 line with
    | some text => .ok (withoutCarriageReturn text)
    | none => .error .invalidUtf8

def expectedLines (maxBytes : Nat) : List (List UInt8) → Nat → List LineResult
  | _, 0 => []
  | [], calls + 1 => .ok none :: expectedLines maxBytes [] calls
  | line :: lines, calls + 1 =>
      match lineText maxBytes line with
      | .ok text => .ok (some text) :: expectedLines maxBytes lines calls
      | .error error => [.error error]

theorem linesOf_nil : linesOf [] = [] := by decide

theorem linesOf_last {line : List UInt8} (h : newline ∉ line) (hne : line ≠ []) :
    linesOf line = [line] := by
  rw [linesOf, List.splitOn_eq_singleton h]
  simp [hne]

theorem linesOf_break {line : List UInt8} (h : newline ∉ line) (rest : List UInt8) :
    linesOf (line ++ newline :: rest) = line :: linesOf rest := by
  rw [linesOf, List.splitOn_append_cons_self_of_not_mem h, linesOf]
  have hne : rest.splitOn newline ≠ [] := List.splitOn_ne_nil newline rest
  simp only [List.getLast?_cons_of_ne_nil hne, List.dropLast_cons_of_ne_nil hne]
  split
  · rfl
  · rfl

/-- A line is at least as long as the part of it that is there. -/
theorem linesOf_front {front : List UInt8} (h : newline ∉ front) (hne : front ≠ [])
    (rest : List UInt8) : ∃ more lines, linesOf (front ++ rest) = (front ++ more) :: lines := by
  by_cases hmem : newline ∈ rest
  · obtain ⟨more, after, rfl, hmore⟩ := List.eq_append_cons_of_mem hmem
    refine ⟨more, linesOf after, ?_⟩
    rw [← List.append_assoc, linesOf_break]
    simpa using ⟨h, hmore⟩
  · refine ⟨rest, [], linesOf_last ?_ (by simp [hne])⟩
    simpa using ⟨h, hmem⟩

/-- The first line ends in the piece that has the line break. -/
theorem linesOf_piece {encoded piece : List UInt8} {position : Nat} (h : newline ∉ encoded)
    (hposition : piece.idxOf? newline = some position) (more : List UInt8) :
    linesOf (encoded ++ (piece ++ more)) =
      (encoded ++ piece.take position) :: linesOf ((piece ++ more).drop (position + 1)) := by
  obtain ⟨hlt, hbreak, hfirst⟩ := List.idxOf?_eq_some_iff.mp hposition
  have hnone : newline ∉ encoded ++ piece.take position := by
    simp only [List.mem_append, not_or]
    refine ⟨h, fun hmem => ?_⟩
    obtain ⟨i, hi, hget⟩ := List.mem_take_iff_getElem.mp hmem
    exact hfirst i (by omega) hget
  have hsplit : piece = piece.take position ++ newline :: piece.drop (position + 1) := by
    rw [← hbreak, ← List.drop_eq_getElem_cons hlt, List.take_append_drop]
  rw [List.drop_append_of_le_length (by omega), ← linesOf_break hnone]
  conv_lhs => rw [hsplit]
  simp

/-- The carriage return goes before decoding or after it. -/
theorem decodeUtf8_withoutCarriageReturn (line : List UInt8) :
    decodeUtf8 (if line.getLast? = some carriageReturn then line.dropLast else line) =
      (decodeUtf8 line).map withoutCarriageReturn := by
  by_cases hlast : line.getLast? = some carriageReturn
  · obtain ⟨before, rfl⟩ := List.getLast?_eq_some_iff.mp hlast
    have hdecode := decodeUtf8_append_ascii (c := '\r') (by decide) before
    rw [if_pos hlast, List.dropLast_concat,
      show carriageReturn = UInt8.ofNat '\r'.toNat from rfl, hdecode, Option.map_map]
    have hsame : withoutCarriageReturn ∘ (· ++ ['\r']) = id := by
      funext text
      simp [withoutCarriageReturn]
    rw [hsame, Option.map_id, id]
  · rw [if_neg hlast]
    cases hdecode : decodeUtf8 line with
    | none => rfl
    | some text =>
        rw [Option.map_some, Option.some_inj]
        rw [decodeUtf8_eq_some] at hdecode
        subst hdecode
        rw [withoutCarriageReturn, if_neg]
        intro htext
        obtain ⟨before, rfl⟩ := List.getLast?_eq_some_iff.mp htext
        apply hlast
        rw [utf8_append, utf8_cons, utf8_nil, utf8EncodeChar_ascii (by decide)]
        simp [carriageReturn]

theorem finishLine_eq {maxBytes : Nat} {line : List UInt8} (h : line.length ≤ maxBytes) :
    finishLine line = (lineText maxBytes line).map some := by
  have hdecode := decodeUtf8_withoutCarriageReturn line
  rw [lineText, if_neg (Nat.not_lt.mpr h)]
  simp only [finishLine, hdecode]
  cases decodeUtf8 line with
  | none => rfl
  | some text => rfl

/-! One call, and calls in a row. -/

section Calls

variable {reader : BufRead State} {maxBytes : Nat}

/-- What one call does with what is still to be read. -/
def Reads (reader : BufRead State) (maxBytes : Nat) (stream : List UInt8)
    (read : ReadLine State) : Prop :=
  match linesOf stream with
  | [] => read.result = .ok none ∧ reader.rest read.state = []
  | line :: lines =>
      read.result = (lineText maxBytes line).map some ∧
        ((lineText maxBytes line).isOk → linesOf (reader.rest read.state) = lines)

theorem reads_exceeds {stream line : List UInt8} {lines : List (List UInt8)}
    (hlines : linesOf stream = line :: lines) (hlong : maxBytes < line.length) (t : State)
    (sizes : List Nat) :
    Reads reader maxBytes stream ⟨.error (.exceeds maxBytes), t, sizes⟩ := by
  rw [Reads, hlines]
  simp only [lineText, if_pos hlong]
  exact ⟨rfl, fun hok => nomatch hok⟩

theorem reads_line {stream line : List UInt8} {lines : List (List UInt8)}
    (hlines : linesOf stream = line :: lines) (hbound : line.length ≤ maxBytes) {t : State}
    (hrest : linesOf (reader.rest t) = lines) (sizes : List Nat) :
    Reads reader maxBytes stream ⟨finishLine line, t, sizes⟩ := by
  rw [Reads, hlines]
  exact ⟨finishLine_eq hbound, fun _ => hrest⟩

/-- There is nothing more to read. -/
theorem reads_ended {encoded : List UInt8} {s : State} (hline : newline ∉ encoded)
    (hbound : encoded.length ≤ maxBytes) (hempty : (reader.fillBuf s).1 = []) :
    Reads reader maxBytes (encoded ++ reader.rest s)
      ⟨if encoded = [] then .ok none else finishLine encoded, (reader.fillBuf s).2, []⟩ := by
  have hrest := reader.fillBuf_empty s hempty
  rw [hrest, List.append_nil]
  split
  next hnone =>
    subst hnone
    exact ⟨rfl, (reader.rest_fillBuf s).trans hrest⟩
  next hsome =>
    refine reads_line (linesOf_last hline hsome) hbound ?_ _
    rw [reader.rest_fillBuf, hrest, linesOf_nil]

/-- The line break is in this piece. -/
theorem reads_break {encoded : List UInt8} {s : State} {position : Nat} (hline : newline ∉ encoded)
    (hposition : (reader.fillBuf s).1.idxOf? newline = some position)
    (hshort : encoded.length + position ≤ maxBytes) (sizes : List Nat) :
    Reads reader maxBytes (encoded ++ reader.rest s)
      ⟨finishLine (encoded ++ (reader.fillBuf s).1.take position),
        reader.consume (reader.fillBuf s).2 (position + 1), sizes⟩ := by
  have hlt : position < (reader.fillBuf s).1.length := (List.idxOf?_eq_some_iff.mp hposition).1
  obtain ⟨more, hmore⟩ := reader.fillBuf_front s
  have hlines := linesOf_piece hline hposition more
  rw [hmore] at hlines
  refine reads_line hlines ?_ ?_ _
  · rw [List.length_append, List.length_take, Nat.min_eq_left hlt.le]
    exact hshort
  · rw [reader.rest_consume s (position + 1) hlt]

theorem reads_break_exceeds {encoded : List UInt8} {s : State} {position : Nat}
    (hline : newline ∉ encoded)
    (hposition : (reader.fillBuf s).1.idxOf? newline = some position)
    (hlong : maxBytes < encoded.length + position) (t : State) :
    Reads reader maxBytes (encoded ++ reader.rest s) ⟨.error (.exceeds maxBytes), t, []⟩ := by
  have hlt : position < (reader.fillBuf s).1.length := (List.idxOf?_eq_some_iff.mp hposition).1
  obtain ⟨more, hmore⟩ := reader.fillBuf_front s
  have hlines := linesOf_piece hline hposition more
  rw [hmore] at hlines
  refine reads_exceeds hlines ?_ _ _
  rw [List.length_append, List.length_take, Nat.min_eq_left hlt.le]
  exact hlong

/-- All of this piece belongs to the line. -/
theorem reads_piece_exceeds {encoded : List UInt8} {s : State}
    (hnone : newline ∉ encoded ++ (reader.fillBuf s).1) (hsome : (reader.fillBuf s).1 ≠ [])
    (hlong : maxBytes < encoded.length + (reader.fillBuf s).1.length) (t : State) :
    Reads reader maxBytes (encoded ++ reader.rest s) ⟨.error (.exceeds maxBytes), t, []⟩ := by
  obtain ⟨more, hmore⟩ := reader.fillBuf_front s
  obtain ⟨tail, lines, hlines⟩ := linesOf_front hnone (by simp [hsome]) more
  rw [List.append_assoc, hmore] at hlines
  refine reads_exceeds hlines ?_ _ _
  simp only [List.length_append]
  omega

theorem rest_consume_piece (encoded : List UInt8) (s : State) :
    encoded ++ (reader.fillBuf s).1 ++ reader.rest
        (reader.consume (reader.fillBuf s).2 (reader.fillBuf s).1.length) =
      encoded ++ reader.rest s := by
  obtain ⟨more, hmore⟩ := reader.fillBuf_front s
  rw [reader.rest_consume s _ le_rfl, ← hmore, List.drop_left, List.append_assoc]

theorem readLoop_reads {encoded : List UInt8} (hline : newline ∉ encoded)
    (hbound : encoded.length ≤ maxBytes) (s : State) :
    Reads reader maxBytes (encoded ++ reader.rest s) (readLoop reader maxBytes encoded s) ∧
      ∀ size ∈ (readLoop reader maxBytes encoded s).sizes, size ≤ maxBytes := by
  induction hsize : (reader.rest s).length using Nat.strong_induction_on generalizing encoded s with
  | _ size ih =>
      subst hsize
      rw [readLoop]
      split
      next hempty =>
        exact ⟨reads_ended hline hbound hempty, fun _ hmem => nomatch hmem⟩
      next hsome =>
        split
        next position hposition =>
          split
          next hlong =>
            exact ⟨reads_break_exceeds hline hposition hlong _, fun _ hmem => nomatch hmem⟩
          next hshort =>
            refine ⟨reads_break hline hposition (Nat.le_of_not_lt hshort) _, ?_⟩
            intro size hmem
            rw [List.mem_singleton.mp hmem, List.length_append, List.length_take]
            omega
        next hposition =>
          have hnone : newline ∉ encoded ++ (reader.fillBuf s).1 := by
            simp only [List.mem_append, not_or]
            exact ⟨hline, List.idxOf?_eq_none_iff.mp hposition⟩
          split
          next hlong =>
            exact ⟨reads_piece_exceeds hnone hsome hlong _, fun _ hmem => nomatch hmem⟩
          next hshort =>
            have hpos : 0 < (reader.fillBuf s).1.length := List.length_pos_iff.mpr hsome
            have hlength : (encoded ++ (reader.fillBuf s).1).length ≤ maxBytes := by
              rw [List.length_append]
              omega
            obtain ⟨hreads, hsizes⟩ := ih _ (rest_consume_lt reader hpos le_rfl) hnone hlength
              (reader.consume (reader.fillBuf s).2 (reader.fillBuf s).1.length) rfl
            rw [rest_consume_piece] at hreads
            refine ⟨hreads, fun size hmem => ?_⟩
            rcases List.mem_cons.mp hmem with rfl | hlater
            · exact hlength
            · exact hsizes size hlater

theorem readBoundedLine_reads (s : State) :
    Reads reader maxBytes (reader.rest s) (readBoundedLine reader maxBytes s) ∧
      ∀ size ∈ (readBoundedLine reader maxBytes s).sizes, size ≤ maxBytes := by
  obtain ⟨hreads, hsizes⟩ := @readLoop_reads _ reader _ _ List.not_mem_nil (Nat.zero_le maxBytes) s
  refine ⟨hreads, fun size hmem => ?_⟩
  rcases List.mem_cons.mp hmem with rfl | hlater
  · exact Nat.zero_le maxBytes
  · exact hsizes size hlater

/-- However the stream is cut into pieces, the calls return its lines up to the first one
that is too long or is no text, and the buffer keeps within the limit. -/
theorem bounded_lines_exact (reader : BufRead State) (maxBytes calls : Nat) (s : State) :
    (readLines reader maxBytes calls s).map (·.result) =
        expectedLines maxBytes (linesOf (reader.rest s)) calls ∧
      ∀ read ∈ readLines reader maxBytes calls s, ∀ size ∈ read.sizes, size ≤ maxBytes := by
  induction calls generalizing s with
  | zero => exact ⟨rfl, fun _ hmem => nomatch hmem⟩
  | succ calls ih =>
      obtain ⟨hreads, hsizes⟩ := @readBoundedLine_reads _ reader maxBytes s
      rw [Reads] at hreads
      rw [readLines]
      cases hlines : linesOf (reader.rest s) with
      | nil =>
          rw [hlines] at hreads
          obtain ⟨hresult, hrest⟩ := hreads
          obtain ⟨hmore, hmoreSizes⟩ := ih (readBoundedLine reader maxBytes s).state
          rw [hrest, linesOf_nil] at hmore
          rw [expectedLines, hresult, List.map_cons, hresult, hmore]
          exact ⟨rfl, List.forall_mem_cons.mpr ⟨hsizes, hmoreSizes⟩⟩
      | cons line lines =>
          rw [hlines] at hreads
          obtain ⟨hresult, hrest⟩ := hreads
          rw [expectedLines]
          cases htext : lineText maxBytes line with
          | error error =>
              rw [htext] at hresult
              have herror : (readBoundedLine reader maxBytes s).result = .error error := hresult
              rw [herror, List.map_singleton, herror]
              exact ⟨rfl, List.forall_mem_singleton.mpr hsizes⟩
          | ok text =>
              rw [htext] at hresult hrest
              have hok : (readBoundedLine reader maxBytes s).result = .ok (some text) := hresult
              obtain ⟨hmore, hmoreSizes⟩ := ih (readBoundedLine reader maxBytes s).state
              rw [hrest rfl] at hmore
              rw [hok, List.map_cons, hok, hmore]
              exact ⟨rfl, List.forall_mem_cons.mpr ⟨hsizes, hmoreSizes⟩⟩

end Calls

example : expectedLines 16 (linesOf (utf8 "first\r\nsecond\n".toList)) 3 =
    [.ok (some "first".toList), .ok (some "second".toList), .ok none] := by
  decide +kernel

/-- A stream that comes in these pieces. -/
def pieces : BufRead (List (List UInt8)) where
  fillBuf s := ((s.dropWhile List.isEmpty).headD [], s.dropWhile List.isEmpty)
  consume s n := s.modifyHead (List.drop n)
  rest := List.flatten
  rest_fillBuf s := by
    induction s with
    | nil => rfl
    | cons piece s ih => cases piece <;> simp_all
  fillBuf_front s := by
    induction s with
    | nil => exact List.prefix_rfl
    | cons piece s ih => cases piece <;> simp_all
  fillBuf_empty s := by
    induction s with
    | nil => exact fun _ => rfl
    | cons piece s ih =>
        cases piece with
        | nil => exact ih
        | cons byte piece => exact fun h => nomatch h
  rest_consume s n h := by
    induction s with
    | nil => simp
    | cons piece s ih =>
        cases piece with
        | nil => exact ih h
        | cons byte piece => exact (List.drop_append_of_le_length h).symm

end EvertyDesk.Desktop
