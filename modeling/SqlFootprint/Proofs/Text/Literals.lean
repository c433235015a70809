import SqlFootprint.Text.Quoted

/-! # Reading quoted texts

The texts between single quotes are read from left to right, where two quotes inside stand for one.
What is written by doubling is read back (`literals_interleaved`). A change of the text that treats
the stretches between quotes one by one changes what is read in the same way (`literals_map`). -/

namespace SqlFootprint.Text

/-! ## The reader -/

/-- Where the reader of quoted texts stands. -/
inductive ReaderState where
  /-- Outside all texts. -/
  | outside
  /-- Inside a text, of which something is read. -/
  | inside (read : List Char)
  /-- Behind a quote that ends a text or is the first of a pair inside it. -/
  | behindQuote (read : List Char)

/-- The quoted texts of the characters that are left; none if a text has no end. -/
def literalsFrom : ReaderState → List Char → Option (List (List Char))
  | .outside, [] => some []
  | .inside _, [] => none
  | .behindQuote read, [] => some [read]
  | .outside, c :: cs =>
    if c = '\x27' then literalsFrom (.inside []) cs else literalsFrom .outside cs
  | .inside read, c :: cs =>
    if c = '\x27' then literalsFrom (.behindQuote read) cs
    else literalsFrom (.inside (read ++ [c])) cs
  | .behindQuote read, c :: cs =>
    if c = '\x27' then literalsFrom (.inside (read ++ ['\x27'])) cs
    else (literalsFrom .outside cs).map (read :: ·)

/-- The quoted texts of a text. -/
def literals? (cs : List Char) : Option (List (List Char)) := literalsFrom .outside cs

/-- Outside, nothing is read without a quote. -/
theorem literalsFrom_outside_append {gap : List Char} (h : '\x27' ∉ gap) (cs : List Char) :
    literalsFrom .outside (gap ++ cs) = literalsFrom .outside cs := by
  induction gap with
  | nil => rfl
  | cons c gap ih =>
    obtain ⟨ne, hgap⟩ := not_or.mp (mt List.mem_cons.mpr h)
    rw [List.cons_append, literalsFrom, if_neg (Ne.symm ne), ih hgap]

/-- Inside, everything is read up to a quote. -/
theorem literalsFrom_inside_append (read : List Char) {stretch : List Char} (h : '\x27' ∉ stretch)
    (cs : List Char) :
    literalsFrom (.inside read) (stretch ++ cs) = literalsFrom (.inside (read ++ stretch)) cs := by
  induction stretch generalizing read with
  | nil => simp
  | cons c stretch ih =>
    obtain ⟨ne, hstretch⟩ := not_or.mp (mt List.mem_cons.mpr h)
    rw [List.cons_append, literalsFrom, if_neg (Ne.symm ne), ih _ hstretch, List.append_assoc,
      List.singleton_append]

/-- Inside, a doubled text is read as the text. -/
theorem literalsFrom_inside_doubleMarks (read value cs : List Char) :
    literalsFrom (.inside read) (doubleMarks '\x27' value ++ cs) =
      literalsFrom (.inside (read ++ value)) cs := by
  induction value generalizing read with
  | nil => simp
  | cons c value ih =>
    rw [doubleMarks_cons]
    by_cases quote : c = '\x27'
    · -- the first quote of the pair leads behind the text, the second back into it
      subst quote
      rw [if_pos rfl]
      show literalsFrom (.inside (read ++ ['\x27'])) (doubleMarks '\x27' value ++ cs) = _
      rw [ih, List.append_assoc, List.singleton_append]
    · rw [if_neg quote]
      show literalsFrom (.inside read) (c :: (doubleMarks '\x27' value ++ cs)) = _
      rw [literalsFrom, if_neg quote, ih, List.append_assoc, List.singleton_append]

/-- A text ends at a quote that is not followed by another. -/
theorem literalsFrom_behindQuote_append (read : List Char) {gap : List Char} (h : '\x27' ∉ gap)
    (ne : gap ≠ []) (cs : List Char) :
    literalsFrom (.behindQuote read) (gap ++ cs) = (literalsFrom .outside cs).map (read :: ·) := by
  obtain ⟨c, gap, rfl⟩ := List.exists_cons_of_ne_nil ne
  obtain ⟨hc, hgap⟩ := not_or.mp (mt List.mem_cons.mpr h)
  rw [List.cons_append, literalsFrom, if_neg (Ne.symm hc), literalsFrom_outside_append hgap]

/-- What is read begins with what was read of it, and behind a quote it goes on with a quote if it
goes on. -/
theorem prefix_of_literalsFrom {cs value : List Char} {values : List (List Char)}
    (read : List Char) :
    (literalsFrom (.inside read) cs = some (value :: values) → read <+: value) ∧
      (literalsFrom (.behindQuote read) cs = some (value :: values) →
        value = read ∨ read ++ ['\x27'] <+: value) := by
  -- a quote leads from each of the two states to the other, so both are followed at once
  induction cs generalizing read with
  | nil =>
    refine ⟨fun eq => ?_, fun eq => ?_⟩
    · cases eq
    · exact Or.inl (List.cons.inj (Option.some.inj eq)).1.symm
  | cons c cs ih =>
    simp only [literalsFrom]
    by_cases quote : c = '\x27'
    · rw [if_pos quote, if_pos quote]
      refine ⟨fun eq => ?_, fun eq => Or.inr ((ih _).1 eq)⟩
      rcases (ih read).2 eq with rfl | more
      · exact List.prefix_rfl
      · exact (List.prefix_append read _).trans more
    · rw [if_neg quote, if_neg quote]
      refine ⟨fun eq => (List.prefix_append read [c]).trans ((ih _).1 eq), fun eq => ?_⟩
      obtain ⟨rest, -, same⟩ := Option.map_eq_some_iff.mp eq
      exact Or.inl (List.cons.inj same).1.symm

/-! ## Texts with something between them -/

/-- Quoted texts, each behind some characters. -/
def interleaved : List (List Char × List Char) → List Char
  | [] => []
  | (gap, value) :: rest =>
    gap ++ '\x27' :: (doubleMarks '\x27' value ++ '\x27' :: interleaved rest)

/-- Characters stand between the texts, and no quote is among them. -/
def Gaps (items : List (List Char × List Char)) : Prop :=
  ∀ item ∈ items, item.1 ≠ [] ∧ '\x27' ∉ item.1

/-- The texts are read back, also behind the end of another text. -/
theorem literalsFrom_interleaved {items : List (List Char × List Char)} (h : Gaps items) :
    literalsFrom .outside (interleaved items) = some (items.map Prod.snd) ∧
      ∀ read, literalsFrom (.behindQuote read) (interleaved items) =
        some (read :: items.map Prod.snd) := by
  -- the first item is met outside, every other one behind the end of the item before
  induction items with
  | nil => exact ⟨rfl, fun _ => rfl⟩
  | cons item rest ih =>
    obtain ⟨gap, value⟩ := item
    obtain ⟨ne, noQuote⟩ := h _ List.mem_cons_self
    have more := (ih fun other m => h other (List.mem_cons_of_mem _ m)).2
    -- the value is read from its opening quote on
    have opened : literalsFrom .outside
        ('\x27' :: (doubleMarks '\x27' value ++ '\x27' :: interleaved rest)) =
        some (value :: rest.map Prod.snd) := by
      show literalsFrom (.inside []) (doubleMarks '\x27' value ++ '\x27' :: interleaved rest) = _
      rw [literalsFrom_inside_doubleMarks]
      exact more value
    constructor
    · rw [interleaved, literalsFrom_outside_append noQuote, opened]
      rfl
    · intro read
      rw [interleaved, literalsFrom_behindQuote_append read noQuote ne, opened]
      rfl

/-- The texts are read back. -/
theorem literals_interleaved {items : List (List Char × List Char)} (h : Gaps items) :
    literals? (interleaved items) = some (items.map Prod.snd) :=
  (literalsFrom_interleaved h).1

/-! ## Changes between quotes -/

/-- A change of texts that treats the stretches between quotes one by one: it neither makes a quote
nor a whole stretch disappear. -/
structure Stretchwise (change : List Char → List Char) : Prop where
  /-- Nothing becomes nothing. -/
  nil : change [] = []
  /-- The stretches around a quote are changed one by one. -/
  append_quote (before after : List Char) :
    change (before ++ '\x27' :: after) = change before ++ '\x27' :: change after
  /-- No quote comes in. -/
  notMem {stretch : List Char} (h : '\x27' ∉ stretch) : '\x27' ∉ change stretch
  /-- No stretch goes away. -/
  ne_nil {stretch : List Char} (h : '\x27' ∉ stretch) (ne : stretch ≠ []) : change stretch ≠ []

/-- Without a quote nothing is read: a text that is open stays so, and one that has ended is the
last. -/
theorem literalsFrom_of_notMem {cs : List Char} (h : '\x27' ∉ cs) :
    literalsFrom .outside cs = some [] ∧ (∀ read, literalsFrom (.inside read) cs = none) ∧
      ∀ read, literalsFrom (.behindQuote read) cs = some [read] := by
  refine ⟨?_, fun read => ?_, fun read => ?_⟩
  · have := literalsFrom_outside_append h []
    rwa [List.append_nil] at this
  · have := literalsFrom_inside_append read h []
    rwa [List.append_nil] at this
  · by_cases ne : cs = []
    · rw [ne]
      rfl
    · have := literalsFrom_behindQuote_append read h ne []
      rwa [List.append_nil] at this

namespace Stretchwise

variable {change : List Char → List Char} (h : Stretchwise change)

include h

/-- A text is changed in the same way whether or not more follows behind a quote in it. -/
theorem append_pair (read after : List Char) :
    change (read ++ ['\x27'] ++ after) = change read ++ ['\x27'] ++ change after := by
  rw [List.append_assoc, List.singleton_append, h.append_quote, List.append_assoc,
    List.singleton_append]

/-- What is read from the changed text is the changed text of what is read, from every state: in an
open text `read'` is what the change has made of `read`. -/
theorem literalsFrom_map (cs : List Char) :
    literalsFrom .outside (change cs) = (literalsFrom .outside cs).map (List.map change) ∧
      (∀ read read', (∀ after, change (read ++ after) = read' ++ change after) →
        literalsFrom (.inside read') (change cs) =
          (literalsFrom (.inside read) cs).map (List.map change)) ∧
      ∀ read, literalsFrom (.behindQuote (change read)) (change cs) =
        (literalsFrom (.behindQuote read) cs).map (List.map change) := by
  -- one stretch and the quote behind it are passed at once
  induction size : cs.length using Nat.strongRecOn generalizing cs with
  | ind size ih =>
    subst size
    by_cases quote : '\x27' ∈ cs
    · obtain ⟨stretch, rest, rfl, noQuote⟩ := List.eq_append_cons_of_mem quote
      have shorter : rest.length < (stretch ++ '\x27' :: rest).length := by
        rw [List.length_append, List.length_cons]
        omega
      obtain ⟨-, inside, behind⟩ := ih _ shorter rest rfl
      have noQuote' := h.notMem noQuote
      have opened : literalsFrom (.inside []) (change rest) =
          (literalsFrom (.inside []) rest).map (List.map change) := inside [] [] fun _ => rfl
      rw [h.append_quote]
      refine ⟨?_, ?_, ?_⟩
      · rw [literalsFrom_outside_append noQuote, literalsFrom_outside_append noQuote']
        exact opened
      · intro read read' same
        have whole : change (read ++ stretch) = read' ++ change stretch := same stretch
        rw [literalsFrom_inside_append _ noQuote, literalsFrom_inside_append _ noQuote', ← whole]
        exact behind (read ++ stretch)
      · intro read
        by_cases empty : stretch = []
        · -- the quote is the second of a pair, so the text goes on
          subst empty
          rw [h.nil]
          exact inside _ _ fun after => h.append_pair read after
        · rw [literalsFrom_behindQuote_append _ noQuote empty,
            literalsFrom_behindQuote_append _ noQuote' (h.ne_nil noQuote empty)]
          show (literalsFrom (.inside []) (change rest)).map _ =
            ((literalsFrom (.inside []) rest).map _).map _
          rw [opened, Option.map_map, Option.map_map]
          rfl
    · -- no quote is left, so no text begins and none that is open ends
      obtain ⟨outside, inside, behind⟩ := literalsFrom_of_notMem quote
      obtain ⟨outside', inside', behind'⟩ := literalsFrom_of_notMem (h.notMem quote)
      refine ⟨?_, ?_, ?_⟩
      · rw [outside, outside']
        rfl
      · intro read read' _
        rw [inside, inside']
        rfl
      · intro read
        rw [behind, behind']
        rfl

/-- What is read from the changed text is the changed text of what is read. -/
theorem literals_map (cs : List Char) :
    literals? (change cs) = (literals? cs).map (List.map change) :=
  (h.literalsFrom_map cs).1

end Stretchwise

end SqlFootprint.Text
