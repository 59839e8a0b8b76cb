import Stencil.Proofs.Marker.Meaning

/-!
Where a scan is in its source. What is left is always an end of the source, an open marker
remembers its first brace, and a closed one has a brace right before what is left. So a fault
shows at the first brace of its marker or right behind a brace.
-/
namespace Stencil.Marker

variable {π : Type} {compile : String → Except String π}

theorem take_text_suffix (rest : List Char) : (takeText rest).2 <:+ rest := by
  induction rest using piece_induction PathAhead with
  | nil => exact List.suffix_rfl
  | stopped source ahead =>
    have same : (takeText source).2 = source := by rw [take_text_path ahead]
    exact ⟨[], same⟩
  | piece first rest fits ih =>
    rw [take_text_piece fits]
    exact ih.trans (List.suffix_append _ _)

theorem take_text_stops (rest : List Char) :
    (takeText rest).2 = [] ∨ PathAhead (takeText rest).2 := by
  obtain ⟨_, _, _, ahead⟩ := take_text_reads rest
  exact ahead

theorem take_body_derived {triple : Bool} {rest text after : List Char}
    (taken : takeBody? triple rest = some (text, after)) :
    ∃ body, Body triple body rest after ∧ text = bodyText body := by
  rw [take_body_reads, Option.map_eq_some_iff] at taken
  obtain ⟨⟨body, tail⟩, read, same⟩ := taken
  cases same
  exact ⟨body, read_body_sound read, rfl⟩

theorem body_suffix {triple : Bool} {body : List Piece} {source after : List Char}
    (closed : Body triple body source after) : closer triple ++ after <:+ source := by
  induction closed with
  | close after => exact List.suffix_rfl
  | piece fits more ih => exact ih.trans (List.suffix_append _ _)

theorem brace_before_rest {triple : Bool} {body : List Piece} {source after : List Char}
    (closed : Body triple body source after) : '}' :: after <:+ source := by
  have braces : '}' :: after <:+ closer triple ++ after := by
    cases triple <;> simp [closer, List.suffix_cons_iff]
  exact braces.trans (body_suffix closed)

/-- The string from the first brace of a marker on. -/
def OpensAt (source opened : List Char) : Prop := opened <:+ source ∧ ['{', '{'] <+: opened

def State.Within (source : List Char) : State π → Prop
  | ⟨.start, rest⟩ => rest = source
  | ⟨.text _, rest⟩ => rest <:+ source
  | ⟨.path _ opened, rest⟩ => OpensAt source opened ∧ rest <:+ source
  | ⟨.whole _ opened, rest⟩ => OpensAt source opened ∧ rest <:+ source
  | ⟨.closed _ _, rest⟩ => '}' :: rest <:+ source

/-- Where a fault shows: at a character behind a closing brace, or where a marker opens. -/
def Cause.ShowsAt (source : List Char) : Cause → List Char → Prop
  | .trailing c, rest => '}' :: rest <:+ source ∧ ∃ more, rest = c :: more
  | .unterminated, rest => OpensAt source rest
  | .invalidPath _ _, rest => OpensAt source rest

def Step.Within (source : List Char) : Step π → Prop
  | .fault cause rest => cause.ShowsAt source rest
  | .finish _ => True
  | .next t => t.Within source

theorem step_text_within {source rest : List Char} (before : List (Token π))
    (inside : rest <:+ source) : (stepText before rest).Within source := by
  have ends := take_text_suffix rest
  have stops := take_text_stops rest
  rcases taken : takeText rest with ⟨text, opened⟩
  simp only [taken] at ends stops
  rcases stops with rfl | ⟨body, rfl, _⟩
  · simp [stepText, taken, Step.Within]
  · have opens : '{' :: '{' :: body <:+ source := ends.trans inside
    have behind : body <:+ source := (List.suffix_append ['{', '{'] body).trans opens
    simpa [stepText, taken, Step.Within] using ⟨⟨opens, by simp⟩, behind⟩

theorem step_body_within {source opened rest : List Char} {triple : Bool} {close : π → Phase π}
    (opens : OpensAt source opened) (inside : rest <:+ source)
    (closes : ∀ path after, '}' :: after <:+ source → State.Within source ⟨close path, after⟩) :
    (stepBody compile triple opened rest close).Within source := by
  unfold stepBody
  cases taken : takeBody? triple rest with
  | none => exact opens
  | some result =>
    obtain ⟨text, after⟩ := result
    obtain ⟨body, closed, rfl⟩ := take_body_derived taken
    have behind := (brace_before_rest closed).trans inside
    cases compiled : compile (String.ofList (bodyText body)) with
    | error reason => simpa only [compiled, Step.Within, Cause.ShowsAt] using opens
    | ok path => simpa only [compiled, Step.Within] using closes path after behind

theorem rest_of_brace {source after : List Char} (behind : '}' :: after <:+ source) :
    after <:+ source :=
  (List.suffix_cons '}' after).trans behind

theorem step_within {source : List Char} {s : State π} (within : s.Within source) :
    (step compile s).Within source := by
  obtain ⟨phase, rest⟩ := s
  cases phase with
  | start =>
    have same : rest = source := within
    subst same
    simp only [step]
    split
    · rename_i kind inside opened
      have spelled := take_opener_iff.mp opened
      subst spelled
      have opens : ['{', '{'] <+: opener kind ++ inside := by cases kind <;> simp [opener]
      exact ⟨⟨List.suffix_rfl, opens⟩, List.suffix_append _ _⟩
    · exact step_text_within [] List.suffix_rfl
  | text before => exact step_text_within before within
  | path before opened =>
    exact step_body_within within.1 within.2 fun path after behind => rest_of_brace behind
  | whole kind opened =>
    exact step_body_within within.1 within.2 fun path after behind => behind
  | closed kind path =>
    cases rest with
    | nil => exact trivial
    | cons c rest => exact ⟨within, rest, rfl⟩

theorem run_shows {source rest : List Char} {s : State π} {cause : Cause}
    (within : s.Within source) (failed : run compile s = .error (cause, rest)) :
    cause.ShowsAt source rest := by
  induction length : s.rest.length using Nat.strongRecOn generalizing s with
  | ind n ih =>
    have kept : (step compile s).Within source := step_within within
    generalize taken : step compile s = outcome at kept
    cases outcome with
    | fault other place =>
      rw [run_fault taken] at failed
      cases failed
      exact kept
    | finish reading =>
      rw [run_finish taken] at failed
      contradiction
    | next t =>
      rw [run_next taken] at failed
      exact ih _ (length ▸ step_shrinks taken) kept failed rfl

theorem scan_shows {source : String} {fault : Fault}
    (failed : scan compile source = .error fault) :
    fault.source = source ∧ ∃ before rest, source.toList = before ++ rest ∧
      before.length = fault.index ∧ fault.cause.ShowsAt source.toList rest := by
  unfold scan at failed
  split at failed
  · contradiction
  · rename_i cause rest ends
    cases failed
    have shows : cause.ShowsAt source.toList rest :=
      run_shows (s := ⟨.start, source.toList⟩) rfl ends
    have inside : rest <:+ source.toList := by
      cases cause with
      | trailing c => exact rest_of_brace shows.1
      | unterminated => exact shows.1
      | invalidPath text reason => exact shows.1
    obtain ⟨before, spelled⟩ := inside
    refine ⟨rfl, before, rest, spelled.symm, ?_, shows⟩
    simp only [← String.length_toList, ← spelled, List.length_append]
    omega

end Stencil.Marker
