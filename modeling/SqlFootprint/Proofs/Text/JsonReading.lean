import SqlFootprint.Text.Json
import Mathlib.Data.List.Forall2
import Mathlib.Tactic.SplitIfs

/-! # Reading JSON

A reader for the texts of the JSON standard, with its four gaps, its numbers, its escapes and its
pairs of surrogates. It knows nothing of how this library writes a value, and it reads every written
value back (`read?_pretty`). Numbers are kept by their digits and the fields of an object in their
order. -/

namespace SqlFootprint.Text

/-- What a JSON text stands for. -/
inductive Datum where
  /-- The missing value. -/
  | null
  /-- A truth value. -/
  | boolean (value : Bool)
  /-- A number, by its characters. -/
  | number (digits : String)
  /-- A text. -/
  | text (value : String)
  /-- A list. -/
  | list (items : List Datum)
  /-- An object. -/
  | object (fields : List (String × Datum))

namespace Json

/-! ## The reader -/

/-- Whether a character may stand between the parts of a text. -/
def isGap (c : Char) : Bool := c = ' ' || c = '\t' || c = '\n' || c = '\r'

/-- What is left behind the gaps in front. -/
def skipGaps (cs : List Char) : List Char := cs.dropWhile isGap

/-- The character that a letter behind a backslash stands for. -/
def escaped? : Char → Option Char
  | '\x22' => some '\x22'
  | '\\' => some '\\'
  | '/' => some '/'
  | 'b' => some '\x08'
  | 'f' => some '\x0c'
  | 'n' => some '\n'
  | 'r' => some '\r'
  | 't' => some '\t'
  | _ => none

/-- The value of a hexadecimal digit. -/
def digitValue? (c : Char) : Option Nat :=
  if c.isDigit then some (c.toNat - 0x30)
  else if 'a' ≤ c ∧ c ≤ 'f' then some (c.toNat - 0x57)
  else if 'A' ≤ c ∧ c ≤ 'F' then some (c.toNat - 0x37)
  else none

/-- The value of hexadecimal digits behind those of a given value. -/
def unitFrom? (value : Nat) : List Char → Option Nat
  | [] => some value
  | c :: cs => do unitFrom? (16 * value + (← digitValue? c)) cs

/-- Whether a number is the first half of a character beyond U+FFFF. -/
def isHighHalf (unit : Nat) : Bool := 0xD800 ≤ unit && unit < 0xDC00

/-- Whether a number is the second half of a character beyond U+FFFF. -/
def isLowHalf (unit : Nat) : Bool := 0xDC00 ≤ unit && unit < 0xE000

/-- The character of two halves. -/
def joinHalves (high low : Nat) : Char :=
  Char.ofNat (0x10000 + (high - 0xD800) * 0x400 + (low - 0xDC00))

/-- Puts a character in front of what is read. -/
def push (c : Char) : Option (List Char × List Char) → Option (List Char × List Char) :=
  Option.map fun (value, rest) => (c :: value, rest)

/-- Reads a text after its opening mark up to its closing mark. `high` is a first half that waits
for its second one. -/
def readText : (high : Option Nat) → List Char → Option (List Char × List Char)
  | _, [] => none
  | high, c :: cs =>
    if c = '\\' then
      match cs with
      | [] => none
      | e :: more =>
        if e = 'u' then
          match more with
          | h :: i :: j :: k :: rest =>
            match high, unitFrom? 0 [h, i, j, k] with
            | none, some unit =>
              if isHighHalf unit then readText (some unit) rest
              else if isLowHalf unit then none
              else push (Char.ofNat unit) (readText none rest)
            | some first, some unit =>
              if isLowHalf unit then push (joinHalves first unit) (readText none rest) else none
            | _, none => none
          | _ => none
        else
          match high, escaped? e with
          | none, some d => push d (readText none more)
          | _, _ => none
    else if high.isSome then none
    else if c = '\x22' then some ([], cs)
    else if c.toNat < 0x20 then none
    else push c (readText none cs)
termination_by structural _ cs => cs

/-- Reads one or more digits. -/
def readDigits (cs : List Char) : Option (List Char × List Char) :=
  match cs.span Char.isDigit with
  | ([], _) => none
  | (digits, rest) => some (digits, rest)

/-- Reads the digits of a fraction with its point, if there is one. -/
def readFraction : List Char → Option (List Char × List Char)
  | '.' :: cs => (readDigits cs).map fun (digits, rest) => ('.' :: digits, rest)
  | cs => some ([], cs)

/-- Reads the digits of a power with its letter and sign, if there is one. -/
def readPower : List Char → Option (List Char × List Char)
  | e :: cs =>
    if e = 'e' || e = 'E' then
      match cs with
      | '+' :: more => (readDigits more).map fun (digits, rest) => (e :: '+' :: digits, rest)
      | '-' :: more => (readDigits more).map fun (digits, rest) => (e :: '-' :: digits, rest)
      | more => (readDigits more).map fun (digits, rest) => (e :: digits, rest)
    else some ([], e :: cs)
  | [] => some ([], [])

/-- Reads a number; a zero in front stands alone. -/
def readNumber (cs : List Char) : Option (Datum × List Char) := do
  let (sign, cs) := match cs with
    | '-' :: more => (['-'], more)
    | more => ([], more)
  let (whole, cs) ← match cs with
    | '0' :: more => some (['0'], more)
    | more => readDigits more
  let (fraction, cs) ← readFraction cs
  let (power, cs) ← readPower cs
  return (.number (String.ofList (sign ++ whole ++ fraction ++ power)), cs)

/-- Reads a value that is one of the three words, or else a number. -/
def readPlain : List Char → Option (Datum × List Char)
  | 'n' :: 'u' :: 'l' :: 'l' :: rest => some (.null, rest)
  | 't' :: 'r' :: 'u' :: 'e' :: rest => some (.boolean true, rest)
  | 'f' :: 'a' :: 'l' :: 's' :: 'e' :: rest => some (.boolean false, rest)
  | cs => readNumber cs

section

variable {α : Type}

/-- Reads one or more parts with commas between them and the closing sign, at most as many as
`fuel`. -/
def readParts (part : List Char → Option (α × List Char)) (close : Char) :
    (fuel : Nat) → List Char → Option (List α × List Char)
  | 0, _ => none
  | fuel + 1, cs => do
    let (first, rest) ← part cs
    match skipGaps rest with
    | [] => none
    | c :: rest =>
      if c = ',' then do
        let (others, rest) ← readParts part close fuel rest
        return (first :: others, rest)
      else if c = close then some ([first], rest)
      else none

/-- Reads parts between signs, after the opening one. -/
def readEnclosed (part : List Char → Option (α × List Char)) (close : Char) (cs : List Char) :
    Option (List α × List Char) :=
  match skipGaps cs with
  | [] => none
  | c :: rest => if c = close then some ([], rest) else readParts part close cs.length cs

end

/-- Reads a field of an object. -/
def readField (value : List Char → Option (Datum × List Char)) (cs : List Char) :
    Option ((String × Datum) × List Char) :=
  match skipGaps cs with
  | '\x22' :: cs => do
    let (key, cs) ← readText none cs
    match skipGaps cs with
    | ':' :: cs => do
      let (value, cs) ← value cs
      return ((String.ofList key, value), cs)
    | _ => none
  | _ => none

/-- Reads a value with at most `depth` levels. -/
def readValue : (depth : Nat) → List Char → Option (Datum × List Char)
  | 0, _ => none
  | depth + 1, cs =>
    match skipGaps cs with
    | '\x22' :: cs =>
      (readText none cs).map fun (value, rest) => (.text (String.ofList value), rest)
    | '[' :: cs =>
      (readEnclosed (fun cs => readValue depth cs) ']' cs).map fun (items, rest) =>
        (.list items, rest)
    | '\x7b' :: cs =>
      (readEnclosed (readField fun cs => readValue depth cs) '\x7d' cs).map fun (fields, rest) =>
        (.object fields, rest)
    | cs => readPlain cs

/-- The value of a whole text. It has fewer levels than characters. -/
def read? (text : String) : Option Datum :=
  match readValue (text.length + 1) text.toList with
  | some (value, rest) => if (skipGaps rest).isEmpty then some value else none
  | none => none

/-! ## Written values as data -/

mutual

/-- A written value among all values. -/
def datum : Json → Datum
  | .null => .null
  | .text value => .text value
  | .list items => .list (itemData items)
  | .object fields => .object (fieldData fields)
termination_by structural value => value

/-- Written values among all values. -/
def itemData : List Json → List Datum
  | [] => []
  | item :: items => item.datum :: itemData items
termination_by structural items => items

/-- A written field among all fields. -/
def fieldDatum : String × Json → String × Datum
  | (key, value) => (key, value.datum)
termination_by structural field => field

/-- Written fields among all fields. -/
def fieldData : List (String × Json) → List (String × Datum)
  | [] => []
  | field :: fields => fieldDatum field :: fieldData fields
termination_by structural fields => fields

end

/-! ## Texts -/

/-- The digits of a number below 16 have its value. -/
theorem unitFrom?_hexDigit {high low : Nat} (hhigh : high < 16) (hlow : low < 16) :
    unitFrom? 0 ['0', '0', hexDigit high, hexDigit low] = some (16 * high + low) := by
  have value : ∀ n < 16, digitValue? (hexDigit n) = some n := by decide
  have zero : digitValue? '0' = some 0 := by decide
  simp [unitFrom?, value high hhigh, value low hlow, zero]

/-- A letter behind a backslash is read as the character it stands for. -/
theorem readText_escaped {e c : Char} (h : escaped? e = some c) (rest : List Char) :
    readText none ('\\' :: e :: rest) = push c (readText none rest) := by
  have ne : e ≠ 'u' := by
    rintro rfl
    cases h
  rw [readText.eq_def]
  simp [ne, h]

/-- Digits behind a backslash are read as the character they give, if it is no half of one. -/
theorem readText_unit {digits : List Char} {unit : Nat} (four : digits.length = 4)
    (h : unitFrom? 0 digits = some unit) (low : unit < 0xD800) (rest : List Char) :
    readText none ('\\' :: 'u' :: (digits ++ rest)) =
      push (Char.ofNat unit) (readText none rest) := by
  have noHigh : isHighHalf unit = false := by
    rw [isHighHalf, decide_eq_false (by omega), Bool.false_and]
  have noLow : isLowHalf unit = false := by
    rw [isLowHalf, decide_eq_false (by omega), Bool.false_and]
  match digits, four with
  | [_, _, _, _], _ =>
    rw [readText.eq_def]
    simp [h, noHigh, noLow]

/-- Any other character is kept, unless it ends the text or is a control. -/
theorem readText_cons {c : Char} (h : c ≠ '\\') (rest : List Char) :
    readText none (c :: rest) =
      if c = '\x22' then some ([], rest)
      else if c.toNat < 0x20 then none
      else push c (readText none rest) := by
  rw [readText.eq_def]
  simp [h]

/-- An escaped character is read as the character. -/
theorem readText_escapeChar (c : Char) (rest : List Char) :
    readText none (escapeChar c ++ rest) = push c (readText none rest) := by
  unfold escapeChar
  split_ifs with quote backslash backspace tab line page start control
  -- the characters that have a letter
  · subst quote
    exact readText_escaped rfl rest
  · subst backslash
    exact readText_escaped rfl rest
  · subst backspace
    exact readText_escaped rfl rest
  · subst tab
    exact readText_escaped rfl rest
  · subst line
    exact readText_escaped rfl rest
  · subst page
    exact readText_escaped rfl rest
  · subst start
    exact readText_escaped rfl rest
  · -- the two digits give the code point
    have unit : unitFrom? 0 ['0', '0', hexDigit (c.toNat / 16), hexDigit (c.toNat % 16)] =
        some (16 * (c.toNat / 16) + c.toNat % 16) := unitFrom?_hexDigit (by omega) (by omega)
    rw [Nat.div_add_mod] at unit
    have read := readText_unit rfl unit (by omega) rest
    rwa [Char.ofNat_toNat] at read
  · exact (readText_cons backslash rest).trans (by rw [if_neg quote, if_neg control])

/-- A quoted text is read back behind its opening mark. -/
theorem readText_quoted (value rest : List Char) :
    readText none (value.flatMap escapeChar ++ '\x22' :: rest) = some (value, rest) := by
  induction value with
  | nil => exact readText_cons (by decide) rest
  | cons c value ih =>
    rw [List.flatMap_cons, List.append_assoc, readText_escapeChar, ih]
    rfl

/-- The characters of a quoted text. -/
theorem toList_quote (s : String) (rest : List Char) :
    (quote s).toList ++ rest = '\x22' :: (s.toList.flatMap escapeChar ++ '\x22' :: rest) := by
  simp [quote]

/-! ## Gaps -/

/-- Gaps in front are passed over. -/
theorem skipGaps_append {gap : List Char} (h : ∀ c ∈ gap, isGap c = true) (rest : List Char) :
    skipGaps (gap ++ rest) = skipGaps rest := by
  induction gap with
  | nil => rfl
  | cons c gap ih =>
    have here : isGap c = true := h c List.mem_cons_self
    rw [skipGaps, List.cons_append, List.dropWhile_cons_of_pos here]
    exact ih fun d m => h d (List.mem_cons_of_mem c m)

/-- Where no gap stands, nothing is passed over. -/
theorem skipGaps_cons {c : Char} (h : isGap c = false) (rest : List Char) :
    skipGaps (c :: rest) = c :: rest :=
  List.dropWhile_cons_of_neg (Bool.eq_false_iff.mp h)

/-- A line break with the blanks behind it is a gap. -/
theorem isGap_newLine (depth : Nat) : ∀ c ∈ (newLine depth).toList, isGap c = true := by
  intro c m
  rw [newLine, String.toList_ofList] at m
  rcases List.mem_cons.mp m with rfl | m
  · rfl
  · rw [List.eq_of_mem_replicate m]
    rfl

/-- A new line in front is passed over. -/
theorem skipGaps_newLine (depth : Nat) (rest : List Char) :
    skipGaps ((newLine depth).toList ++ rest) = skipGaps rest :=
  skipGaps_append (isGap_newLine depth) rest

/-! ## Lines -/

section

variable {α : Type} {part : List Char → Option (α × List Char)}

/-- Whether a text begins with a character that is neither a gap nor a closing sign. -/
def beginsPart : List Char → Bool
  | [] => false
  | c :: _ => !isGap c && c ≠ ']' && c ≠ '\x7d'

/-- A reader gives a value for a text. -/
structure Reads (part : List Char → Option (α × List Char)) (written : String) (value : α) :
    Prop where
  /-- Gaps may stand in front of the text and anything behind it. -/
  read : ∀ gap rest : List Char, (∀ c ∈ gap, isGap c = true) →
    part (gap ++ (written.toList ++ rest)) = some (value, rest)
  /-- The text begins a part. -/
  begins : beginsPart written.toList = true

/-- Behind the last part comes the closing sign. -/
theorem readParts_last {close : Char} (ne : close ≠ ',') {cs behind rest : List Char} {first : α}
    (here : part cs = some (first, behind)) (closed : skipGaps behind = close :: rest)
    (fuel : Nat) : readParts part close (fuel + 1) cs = some ([first], rest) := by
  simp [readParts, here, closed, ne]

/-- Behind any other part comes a comma. -/
theorem readParts_comma {close : Char} {cs behind more rest : List Char} {first : α}
    {others : List α} {fuel : Nat} (here : part cs = some (first, behind))
    (comma : skipGaps behind = ',' :: more)
    (later : readParts part close fuel more = some (others, rest)) :
    readParts part close (fuel + 1) cs = some (first :: others, rest) := by
  simp [readParts, here, comma, later]

/-- Parts on lines of their own are read one by one. -/
theorem readParts_lines {close : Char} (hclose : isGap close = false) (ne : close ≠ ',')
    {written : List String} {values : List α} (h : List.Forall₂ (Reads part) written values)
    (nonempty : written ≠ []) (depth outer : Nat) (rest : List Char) {fuel : Nat}
    (enough : written.length ≤ fuel) :
    readParts part close fuel
        ((lines depth written).toList ++ ((newLine outer).toList ++ close :: rest)) =
      some (values, rest) := by
  induction h generalizing fuel with
  | nil => exact absurd rfl nonempty
  | @cons item value items values here others ih =>
    obtain ⟨fuel, rfl⟩ : ∃ n, fuel = n + 1 :=
      ⟨fuel - 1, by rw [List.length_cons] at enough; omega⟩
    have first (tail : List Char) := here.read (newLine depth).toList tail (isGap_newLine depth)
    cases items with
    | nil =>
      cases others
      have text : lines depth [item] = newLine depth ++ item := rfl
      have closed : skipGaps ((newLine outer).toList ++ close :: rest) = close :: rest := by
        rw [skipGaps_newLine, skipGaps_cons hclose]
      rw [text, String.toList_append, List.append_assoc]
      exact readParts_last ne (first _) closed fuel
    | cons next items =>
      have text : lines depth (item :: next :: items) =
        newLine depth ++ item ++ "," ++ lines depth (next :: items) := rfl
      have later := ih (List.cons_ne_nil _ _) (Nat.le_of_succ_le_succ enough)
      rw [text]
      simp only [String.toList_append, List.append_assoc]
      exact readParts_comma (first _) (skipGaps_cons rfl _) later

/-- Lines begin with the first part behind a gap. -/
theorem exists_toList_lines (depth : Nat) (item : String) (items : List String) :
    ∃ more, (lines depth (item :: items)).toList =
      (newLine depth).toList ++ (item.toList ++ more) := by
  cases items with
  | nil => exact ⟨[], by simp [lines]⟩
  | cons next items => exact ⟨',' :: (lines depth (next :: items)).toList, by simp [lines]⟩

/-- Lines are longer than each part, and no fewer characters than there are parts. -/
theorem length_lines (depth : Nat) (written : List String) :
    (∀ item ∈ written, item.length < (lines depth written).length) ∧
      written.length ≤ (lines depth written).length := by
  have line : 1 ≤ (newLine depth).length := by
    rw [← String.length_toList, newLine, String.toList_ofList]
    exact Nat.succ_le_succ (Nat.zero_le _)
  induction written with
  | nil => exact ⟨fun _ m => absurd m List.not_mem_nil, Nat.zero_le _⟩
  | cons item items ih =>
    cases items with
    | nil =>
      simp only [lines, List.mem_singleton, forall_eq, String.length_append, List.length_singleton]
      omega
    | cons next items =>
      have whole : (lines depth (item :: next :: items)).length =
          (newLine depth).length + item.length + 1 + (lines depth (next :: items)).length := by
        simp only [lines, String.length_append]
        rfl
      obtain ⟨each, count⟩ := ih
      rw [whole]
      refine ⟨List.forall_mem_cons.mpr ⟨by omega, fun other m => ?_⟩, ?_⟩
      · have := each other m
        omega
      · rw [List.length_cons]
        omega

/-- Parts on lines of their own between signs are read one by one. -/
theorem readEnclosed_lines {close : Char} (hclose : close = ']' ∨ close = '\x7d')
    {written : List String} {values : List α} (h : List.Forall₂ (Reads part) written values)
    (nonempty : written ≠ []) (depth outer : Nat) (rest : List Char) :
    readEnclosed part close
        ((lines depth written).toList ++ ((newLine outer).toList ++ close :: rest)) =
      some (values, rest) := by
  have noGap : isGap close = false := by rcases hclose with rfl | rfl <;> rfl
  have noComma : close ≠ ',' := by rcases hclose with rfl | rfl <;> decide
  have enough : written.length ≤
      ((lines depth written).toList ++ ((newLine outer).toList ++ close :: rest)).length := by
    rw [List.length_append, String.length_toList]
    exact Nat.le_add_right_of_le (length_lines depth written).2
  have read := readParts_lines noGap noComma h nonempty depth outer rest enough
  cases h with
  | nil => exact absurd rfl nonempty
  | @cons item value items values here others =>
    -- the first part begins with a character that closes nothing
    obtain ⟨more, front⟩ := exists_toList_lines depth item items
    obtain ⟨c, cs, first, other⟩ : ∃ c cs, skipGaps ((lines depth (item :: items)).toList ++
        ((newLine outer).toList ++ close :: rest)) = c :: cs ∧ c ≠ close := by
      have begins := here.begins
      rw [front, List.append_assoc, skipGaps_newLine]
      cases start : item.toList with
      | nil =>
        rw [start] at begins
        cases begins
      | cons c cs =>
        rw [start] at begins
        simp only [beginsPart, Bool.and_eq_true, Bool.not_eq_true', decide_eq_true_eq] at begins
        refine ⟨c, _, skipGaps_cons begins.1.1 _, ?_⟩
        rcases hclose with rfl | rfl
        · exact begins.1.2
        · exact begins.2
    rw [readEnclosed, first]
    exact (if_neg other).trans read

/-- A closed sign ends what is enclosed at once. -/
theorem readEnclosed_nil {close : Char} (hclose : isGap close = false) (rest : List Char) :
    readEnclosed part close (close :: rest) = some ([], rest) := by
  rw [readEnclosed, skipGaps_cons hclose]
  exact if_pos rfl

end

/-! ## Values -/

/-- A value is read as it is without the gaps in front of it. -/
theorem readValue_gap {gap : List Char} (h : ∀ c ∈ gap, isGap c = true) (depth : Nat)
    (cs : List Char) : readValue depth (gap ++ cs) = readValue depth cs := by
  cases depth with
  | zero => rfl
  | succ depth => rw [readValue, readValue, skipGaps_append h]

/-- A text is read back. -/
theorem reads_quote (depth : Nat) (value : String) :
    Reads (readValue (depth + 1)) (quote value) (.text value) where
  read gap rest h := by
    rw [readValue_gap h, toList_quote, readValue, skipGaps_cons rfl]
    show (readText none _).map _ = _
    rw [readText_quoted, Option.map_some]
    exact congrArg (fun text => some (Datum.text text, rest)) String.ofList_toList
  begins := by
    have text := toList_quote value []
    rw [List.append_nil] at text
    rw [text]
    rfl

/-- A field is read back if its value is. -/
theorem reads_field {value : List Char → Option (Datum × List Char)} {written : String}
    {datum : Datum} (h : Reads value written datum) (key : String) :
    Reads (readField value) (quote key ++ ": " ++ written) (key, datum) where
  read gap rest hgap := by
    have blank : ∀ c ∈ [' '], isGap c = true := by simp [isGap]
    have read : value (' ' :: (written.toList ++ rest)) = some (datum, rest) :=
      h.read [' '] rest blank
    have text : (quote key ++ ": " ++ written).toList ++ rest =
        '\x22' :: (key.toList.flatMap escapeChar ++ '\x22' :: ':' :: ([' '] ++
          (written.toList ++ rest))) := by
      rw [String.toList_append, String.toList_append, List.append_assoc, List.append_assoc,
        toList_quote]
      rfl
    rw [readField, skipGaps_append hgap, text, skipGaps_cons rfl]
    simp [readText_quoted, skipGaps_cons (show isGap ':' = false from rfl), read]
  begins := by
    have text := toList_quote key (": " ++ written).toList
    rw [String.append_assoc, String.toList_append, text]
    rfl

/-- The missing value is read back. -/
theorem reads_null (depth : Nat) : Reads (readValue (depth + 1)) "null" .null where
  read gap rest h := by
    have text : "null".toList ++ rest = 'n' :: 'u' :: 'l' :: 'l' :: rest := rfl
    rw [readValue_gap h, text, readValue, skipGaps_cons rfl]
    rfl
  begins := rfl

/-- A list is read from its opening bracket on. -/
theorem readValue_bracket (depth : Nat) (cs : List Char) :
    readValue (depth + 1) ('[' :: cs) =
      (readEnclosed (readValue depth) ']' cs).map fun (items, rest) => (.list items, rest) := by
  rw [readValue, skipGaps_cons rfl]
  rfl

/-- An object is read from its opening brace on. -/
theorem readValue_brace (depth : Nat) (cs : List Char) :
    readValue (depth + 1) ('\x7b' :: cs) =
      (readEnclosed (readField (readValue depth)) '\x7d' cs).map fun (fields, rest) =>
        (.object fields, rest) := by
  rw [readValue, skipGaps_cons rfl]
  rfl

/-- The empty list is read back. -/
theorem reads_emptyList (depth : Nat) : Reads (readValue (depth + 1)) "[]" (.list []) where
  read gap rest h := by
    have text : "[]".toList ++ rest = '[' :: ']' :: rest := rfl
    rw [readValue_gap h, text, readValue_bracket, readEnclosed_nil rfl]
    rfl
  begins := rfl

/-- The empty object is read back. -/
theorem reads_emptyObject (depth : Nat) :
    Reads (readValue (depth + 1)) "\x7b\x7d" (.object []) where
  read gap rest h := by
    have text : "\x7b\x7d".toList ++ rest = '\x7b' :: '\x7d' :: rest := rfl
    rw [readValue_gap h, text, readValue_brace, readEnclosed_nil rfl]
    rfl
  begins := rfl

/-- A list is read back if its items are. -/
theorem reads_list {depth : Nat} {written : List String} {items : List Datum}
    (h : List.Forall₂ (Reads (readValue depth)) written items) (nonempty : written ≠ [])
    (inner outer : Nat) : Reads (readValue (depth + 1))
      ("[" ++ lines inner written ++ newLine outer ++ "]") (.list items) where
  read gap rest hgap := by
    have text : ("[" ++ lines inner written ++ newLine outer ++ "]").toList ++ rest =
        '[' :: ((lines inner written).toList ++ ((newLine outer).toList ++ ']' :: rest)) := by
      simp
    rw [readValue_gap hgap, text, readValue_bracket,
      readEnclosed_lines (.inl rfl) h nonempty inner outer rest]
    rfl
  begins := by simp [beginsPart, isGap]

/-- An object is read back if its fields are. -/
theorem reads_object {depth : Nat} {written : List String} {fields : List (String × Datum)}
    (h : List.Forall₂ (Reads (readField (readValue depth))) written fields)
    (nonempty : written ≠ []) (inner outer : Nat) : Reads (readValue (depth + 1))
      ("\x7b" ++ lines inner written ++ newLine outer ++ "\x7d") (.object fields) where
  read gap rest hgap := by
    have text : ("\x7b" ++ lines inner written ++ newLine outer ++ "\x7d").toList ++ rest =
        '\x7b' :: ((lines inner written).toList ++ ((newLine outer).toList ++ '\x7d' :: rest)) := by
      simp
    rw [readValue_gap hgap, text, readValue_brace,
      readEnclosed_lines (.inr rfl) h nonempty inner outer rest]
    rfl
  begins := by simp [beginsPart, isGap]

/-- What stands between signs has room for each of its lines. -/
theorem length_lt_enclosed {before after : String} (depth outer : Nat) {written : List String}
    {n : Nat} (enough : (before ++ lines depth written ++ newLine outer ++ after).length ≤ n)
    (nonempty : written ≠ []) :
    ∃ m, n = m + 1 ∧ ∀ item ∈ written, item.length ≤ m := by
  simp only [String.length_append] at enough
  have inside := (length_lines depth written).1
  obtain ⟨item, items, rfl⟩ := List.exists_cons_of_ne_nil nonempty
  have first := inside item List.mem_cons_self
  refine ⟨n - 1, by omega, fun other m => ?_⟩
  have := inside other m
  omega

mutual

/-- A written value is read back. -/
theorem reads_pretty (depth : Nat) {n : Nat} : (value : Json) →
    (value.pretty depth).length ≤ n → Reads (readValue (n + 1)) (value.pretty depth) value.datum
  | .null => fun _ => reads_null n
  | .text value => fun _ => reads_quote n value
  | .list [] => fun _ => reads_emptyList n
  | .list (item :: items) => fun enough => by
    obtain ⟨n, rfl, inside⟩ := length_lt_enclosed (depth + 1) depth enough (List.cons_ne_nil _ _)
    exact reads_list (reads_prettyItems (depth + 1) (item :: items) inside) (List.cons_ne_nil _ _)
      (depth + 1) depth
  | .object [] => fun _ => reads_emptyObject n
  | .object (field :: fields) => fun enough => by
    obtain ⟨n, rfl, inside⟩ := length_lt_enclosed (depth + 1) depth enough (List.cons_ne_nil _ _)
    exact reads_object (reads_prettyFields (depth + 1) (field :: fields) inside)
      (List.cons_ne_nil _ _) (depth + 1) depth
termination_by structural value => value

/-- Written values are read back. -/
theorem reads_prettyItems (depth : Nat) {n : Nat} : (items : List Json) →
    (∀ item ∈ prettyItems depth items, item.length ≤ n) →
      List.Forall₂ (Reads (readValue (n + 1))) (prettyItems depth items) (itemData items)
  | [] => fun _ => .nil
  | item :: items => fun enough =>
    .cons (reads_pretty depth item (enough _ List.mem_cons_self))
      (reads_prettyItems depth items fun other m => enough other (List.mem_cons_of_mem _ m))
termination_by structural items => items

/-- A written field is read back. -/
theorem reads_prettyField (depth : Nat) {n : Nat} : (field : String × Json) →
    (prettyField depth field).length ≤ n →
      Reads (readField (readValue (n + 1))) (prettyField depth field) (fieldDatum field)
  | (key, value) => fun enough => by
    have shorter : (value.pretty depth).length ≤ n := by
      rw [prettyField, String.length_append] at enough
      omega
    exact reads_field (reads_pretty depth value shorter) key
termination_by structural field => field

/-- Written fields are read back. -/
theorem reads_prettyFields (depth : Nat) {n : Nat} : (fields : List (String × Json)) →
    (∀ field ∈ prettyFields depth fields, field.length ≤ n) →
      List.Forall₂ (Reads (readField (readValue (n + 1)))) (prettyFields depth fields)
        (fieldData fields)
  | [] => fun _ => .nil
  | field :: fields => fun enough =>
    .cons (reads_prettyField depth field (enough _ List.mem_cons_self))
      (reads_prettyFields depth fields fun other m => enough other (List.mem_cons_of_mem _ m))
termination_by structural fields => fields

end

/-- A written value with gaps behind it is read back. -/
theorem read?_pretty (value : Json) {gap : String} (h : ∀ c ∈ gap.toList, isGap c = true) :
    read? (value.pretty 0 ++ gap) = some value.datum := by
  have enough : (value.pretty 0).length ≤ (value.pretty 0 ++ gap).length := by
    rw [String.length_append]
    exact Nat.le_add_right _ _
  have read := (reads_pretty 0 value enough).read [] gap.toList fun c m => absurd m List.not_mem_nil
  have rest : skipGaps gap.toList = [] := by
    have all := skipGaps_append h []
    rwa [List.append_nil] at all
  rw [List.nil_append, ← String.toList_append] at read
  rw [read?, read]
  show (if (skipGaps gap.toList).isEmpty then _ else _) = _
  rw [rest]
  rfl

end Json

end SqlFootprint.Text
