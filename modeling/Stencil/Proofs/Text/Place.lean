import Stencil.Proofs.Text.Line

/-!
The place of an index in a text. A text is cut behind each ending of a line and in no other way, and
the lines give it back. An index inside the text is on the one line that it counts characters of;
one before the text is on the first line, and one behind it has no place. What is shown of the line
is the line without the blanks at its end, so without its ending.
-/
namespace Stencil.Text

/-- A text and its lines. All lines but the last have an ending, and a carriage return is the whole
ending only where no line feed follows it. -/
inductive SplitsInto : List Char → List (List Char) → Prop where
  | nil : SplitsInto [] []
  | last {line : List Char} (full : line ≠ []) (plain : OneLine line) : SplitsInto line [line]
  | ended {body ending rest : List Char} {lines : List (List Char)} (plain : OneLine body)
      (ends : IsEnding ending) (whole : ending = ['\r'] → rest.head? ≠ some '\n')
      (more : SplitsInto rest lines) :
      SplitsInto (body ++ (ending ++ rest)) ((body ++ ending) :: lines)

def lineStart (lines : List (List Char)) (number : Nat) : Nat :=
  (lines.take (number - 1)).flatten.length

/-- The index counts `column` characters from the start of the line, and does not reach its end. -/
structure OnLine (lines : List (List Char)) (index : Int) (number : Nat) (column : Int)
    (line : List Char) : Prop where
  counted : 1 ≤ number
  listed : lines[number - 1]? = some line
  summed : lineStart lines number + column = index
  before_end : column < line.length

/-- The line without the blanks at its end, all of them. -/
def Trims (line shown : List Char) : Prop :=
  ∃ blanks, line = shown ++ blanks ∧ (∀ c ∈ blanks, isBlank c = true) ∧
    ∀ c ∈ shown.getLast?, isBlank c = false

structure Locates (lines : List (List Char)) (index : Int) (place : Place) : Prop where
  on_line : ∃ line, OnLine lines index place.line place.column line ∧ Trims line place.current
  plain : OneLine place.current
  inside : 0 ≤ index → 0 ≤ place.column ∧
    ∀ number column line, 0 ≤ column → OnLine lines index number column line →
      number = place.line ∧ column = place.column
  before : index < 0 → place.line = 1 ∧ place.column = index

theorem one_line_nil : OneLine [] :=
  List.forall_mem_nil _

theorem splits_cons {c : Char} {rest line : List Char} {lines : List (List Char)}
    (plain : endsLine c = false) (splits : SplitsInto rest (line :: lines)) :
    SplitsInto (c :: rest) ((c :: line) :: lines) := by
  cases splits with
  | last full others => exact .last (by simp) (List.forall_mem_cons.mpr ⟨plain, others⟩)
  | @ended body ending rest lines others ends whole more =>
    have longer : OneLine (c :: body) := List.forall_mem_cons.mpr ⟨plain, others⟩
    exact .ended longer ends whole more

theorem split_lines_splits (text : List Char) : SplitsInto text (splitLines text) := by
  fun_induction splitLines text with
  | case1 => exact .nil
  | case2 rest ih => exact .ended one_line_nil .pair (by simp) ih
  | case3 c rest other ends ih =>
    refine .ended one_line_nil (.single ends) ?_ ih
    intro same feed
    obtain ⟨more, rfl⟩ := List.head?_eq_some_iff.mp feed
    simp only [List.cons.injEq, and_true] at same
    exact other more same rfl
  | case4 c rest other plain none ih =>
    have empty : rest = [] := by rw [← flatten_split_lines rest, none, List.flatten_nil]
    subst empty
    exact .last (by simp) (by simpa [OneLine] using plain)
  | case5 c rest other plain line lines some ih =>
    rw [some] at ih
    exact splits_cons (by simpa using plain) ih

theorem split_lines_at_ending {ending rest : List Char} (ends : IsEnding ending)
    (whole : ending = ['\r'] → rest.head? ≠ some '\n') :
    splitLines (ending ++ rest) = ending :: splitLines rest := by
  cases ends with
  | pair => rfl
  | @single c ends =>
    have other : ∀ more, c = '\r' → rest ≠ '\n' :: more := by
      intro more same feed
      subst same feed
      exact whole rfl rfl
    rw [List.cons_append, List.nil_append, splitLines.eq_3 c rest other, if_pos ends]

theorem split_lines_behind {body ending rest : List Char} (plain : OneLine body)
    (ends : IsEnding ending) (whole : ending = ['\r'] → rest.head? ≠ some '\n') :
    splitLines (body ++ (ending ++ rest)) = (body ++ ending) :: splitLines rest := by
  induction body with
  | nil => exact split_lines_at_ending ends whole
  | cons c body ih =>
    obtain ⟨first, others⟩ := List.forall_mem_cons.mp plain
    rw [List.cons_append, split_lines_char first, ih others]
    rfl

theorem splits_into_iff {text : List Char} {lines : List (List Char)} :
    SplitsInto text lines ↔ lines = splitLines text := by
  constructor
  · intro splits
    induction splits with
    | nil => rfl
    | last full plain => exact (split_lines_single plain full).symm
    | ended plain ends whole more ih => rw [split_lines_behind plain ends whole, ih]
  · intro same
    subst same
    exact split_lines_splits text

theorem trim_end_trims (line : List Char) : Trims line (trimEnd line) := by
  refine ⟨(line.reverse.takeWhile isBlank).reverse, ?_, ?_, ?_⟩
  · rw [trimEnd, ← List.reverse_append, List.takeWhile_append_dropWhile, List.reverse_reverse]
  · intro c there
    exact List.all_eq_true.mp List.all_takeWhile c (List.mem_reverse.mp there)
  · intro c last
    rw [trimEnd, List.getLast?_reverse] at last
    have := List.head?_dropWhile_not isBlank line.reverse
    rw [Option.mem_def.mp last] at this
    simpa using this

section Lines

variable {lines : List (List Char)}

theorem line_start_le {one two : Nat} (before : one ≤ two) :
    lineStart lines one ≤ lineStart lines two := by
  have shorter : lines.take (one - 1) <+: lines.take (two - 1) :=
    List.take_prefix_take_left (by omega)
  obtain ⟨more, same⟩ := shorter
  rw [lineStart, lineStart, ← same, List.flatten_append, List.length_append]
  omega

theorem line_start_next {number : Nat} {line : List Char} (counted : 1 ≤ number)
    (listed : lines[number - 1]? = some line) :
    lineStart lines (number + 1) = lineStart lines number + line.length := by
  have next : number + 1 - 1 = (number - 1) + 1 := by omega
  rw [lineStart, lineStart, next, List.take_add_one, listed]
  simp

theorem on_line_le {first second : Int} {one two : Nat} {column other : Int}
    {line under : List Char} (small : OnLine lines first one column line) (nonneg : 0 ≤ column)
    (large : OnLine lines second two other under) (ordered : first ≤ second) : one ≤ two := by
  apply Nat.le_of_not_lt
  intro later
  have behind : lineStart lines (two + 1) ≤ lineStart lines one := line_start_le (by omega)
  rw [line_start_next large.counted large.listed] at behind
  have := small.summed
  have := large.summed
  have := large.before_end
  omega

theorem on_line_unique {index : Int} {one two : Nat} {column other : Int} {line under : List Char}
    (first : OnLine lines index one column line) (nonneg : 0 ≤ column)
    (second : OnLine lines index two other under) (also_nonneg : 0 ≤ other) :
    one = two ∧ column = other := by
  have forth := on_line_le first nonneg second (Int.le_refl index)
  have back := on_line_le second also_nonneg first (Int.le_refl index)
  have same : one = two := Nat.le_antisymm forth back
  subst same
  have := first.summed
  have := second.summed
  exact ⟨rfl, by omega⟩

theorem place_from_beyond {index : Int} (number : Nat) {start : Nat}
    (beyond : ((start + lines.flatten.length : Nat) : Int) ≤ index) :
    placeFrom index number start lines = none := by
  induction lines generalizing number start with
  | nil => rfl
  | cons line lines ih =>
    rw [List.flatten_cons, List.length_append] at beyond
    rw [placeFrom, if_neg (by omega)]
    exact ih (number + 1) (by omega)

end Lines

theorem place_of_before {text : List Char} {index : Int} (full : text ≠ []) (before : index < 0) :
    ∃ line later, splitLines text = line :: later ∧
      place? text index = some ⟨1, index, trimEnd line⟩ := by
  cases split : splitLines text with
  | nil =>
    have empty : text = [] := by rw [← flatten_split_lines text, split, List.flatten_nil]
    exact absurd empty full
  | cons line later =>
    refine ⟨line, later, rfl, ?_⟩
    rw [place?, split, placeFrom, if_pos (by omega)]
    simp

theorem place_of_inside {text : List Char} {index : Nat} (inside : index < text.length) :
    ∃ number column line, OnLine (splitLines text) index number column line ∧ 0 ≤ column ∧
      place? text index = some ⟨number, column, trimEnd line⟩ := by
  have covered : index < 0 + (splitLines text).flatten.length := by
    rw [flatten_split_lines, Nat.zero_add]
    exact inside
  obtain ⟨earlier, line, later, split, after, ends, placed⟩ :=
    place_from_covered 1 (Nat.zero_le index) covered
  refine ⟨1 + earlier.length, index - earlier.flatten.length, line, ?_, by omega, ?_⟩
  · have here : 1 + earlier.length - 1 = earlier.length := by omega
    have start : lineStart (splitLines text) (1 + earlier.length) = earlier.flatten.length := by
      rw [lineStart, here, split, List.take_left]
    constructor
    · omega
    · rw [here, split]
      simp
    · omega
    · omega
  · rw [place?, placed, Nat.zero_add]

theorem place_none_iff {text : List Char} {index : Int} :
    place? text index = none ↔ text = [] ∨ (text.length : Int) ≤ index := by
  constructor
  · intro none
    by_cases empty : text = []
    · exact .inl empty
    · right
      apply Int.le_of_not_gt
      intro inside
      by_cases before : index < 0
      · obtain ⟨line, later, _, placed⟩ := place_of_before empty before
        simp [placed] at none
      · obtain ⟨n, rfl⟩ := Int.eq_ofNat_of_zero_le (show 0 ≤ index by omega)
        obtain ⟨_, _, _, _, _, placed⟩ := place_of_inside (Int.ofNat_lt.mp inside)
        simp [placed] at none
  · intro outside
    rcases outside with rfl | beyond
    · rfl
    · apply place_from_beyond
      rw [flatten_split_lines, Nat.zero_add]
      exact beyond

theorem place_locates {text : List Char} {index : Int} {place : Place}
    (placed : place? text index = some place) : Locates (splitLines text) index place := by
  have found : place? text index ≠ none := by simp [placed]
  rw [ne_eq, place_none_iff, not_or] at found
  obtain ⟨full, inside⟩ := found
  by_cases before : index < 0
  · obtain ⟨line, later, split, found⟩ := place_of_before full before
    cases placed.symm.trans found
    have member : line ∈ splitLines text := by simp [split]
    have shorter : index < line.length := by omega
    constructor
    · refine ⟨line, ⟨Nat.le_refl 1, by simp [split], ?_, shorter⟩, trim_end_trims line⟩
      simp [lineStart]
    · exact trimmed_line member
    · intro after
      omega
    · intro _
      exact ⟨rfl, rfl⟩
  · obtain ⟨n, rfl⟩ := Int.eq_ofNat_of_zero_le (show 0 ≤ index by omega)
    obtain ⟨number, column, line, here, nonneg, found⟩ :=
      place_of_inside (show n < text.length by omega)
    cases placed.symm.trans found
    constructor
    · exact ⟨line, here, trim_end_trims line⟩
    · exact trimmed_line (List.mem_of_getElem? here.listed)
    · intro _
      refine ⟨nonneg, ?_⟩
      intro other behind under also_nonneg there
      exact on_line_unique there also_nonneg here nonneg
    · intro after
      omega

theorem place_line_le {text : List Char} {first second : Int} {one two : Place}
    (ordered : first ≤ second) (placed : place? text first = some one)
    (also_placed : place? text second = some two) : one.line ≤ two.line := by
  have small := place_locates placed
  have large := place_locates also_placed
  obtain ⟨line, on_line, _⟩ := small.on_line
  obtain ⟨under, also_on_line, _⟩ := large.on_line
  by_cases before : first < 0
  · rw [(small.before before).1]
    exact also_on_line.counted
  · exact on_line_le on_line (small.inside (by omega)).1 also_on_line ordered

/-- The lines of a text are what it is cut into, and an index has a place just where some line is
for it: before the end of a text that is not empty. The place is the one that the index has, and
greater indexes are on the same line or on later ones. -/
theorem place_locates_index (text : List Char) :
    (splitLines text).flatten = text ∧
    (∀ lines, SplitsInto text lines ↔ lines = splitLines text) ∧
    (∀ index, place? text index = none ↔ text = [] ∨ (text.length : Int) ≤ index) ∧
    (∀ index place, place? text index = some place → Locates (splitLines text) index place) ∧
    ∀ first second one two, first ≤ second → place? text first = some one →
      place? text second = some two → one.line ≤ two.line := by
  refine ⟨flatten_split_lines text, ?_, ?_, ?_, ?_⟩
  · intro lines
    exact splits_into_iff
  · intro index
    exact place_none_iff
  · intro index place placed
    exact place_locates placed
  · intro first second one two ordered placed also_placed
    exact place_line_le ordered placed also_placed

/-- Between a carriage return and its line feed an index is still on the line that they end. -/
example : place? ['a', '\r', '\n', ' ', 'b', '\u2028'] 2 = some ⟨1, 2, ['a']⟩ := by decide

end Stencil.Text
