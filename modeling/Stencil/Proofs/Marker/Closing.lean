import Stencil.Proofs.Marker.Position
import Stencil.Proofs.Template.Paths

/-!
The markers that a scan closes. They are listed from the string alone, without a path compiler:
text and bodies take turns until the string ends or a marker stays open. Every path compiler is
asked for their paths in this order, and the first one that it refuses ends the scan.
-/
namespace Stencil.Marker

variable {π : Type} {compile : String → Except String π}

/-- A marker that is closed: the string from its first brace on, and the text of its path. -/
structure Closing where
  opened : List Char
  path : String

theorem take_path_shrinks {rest text inside body after : List Char}
    (taken : takeText rest = (text, '{' :: '{' :: inside))
    (read : takeBody? false inside = some (body, after)) : after.length < rest.length := by
  have opened := take_text_length rest
  have shorter := take_body_length read
  simp only [taken, List.length_cons] at opened
  omega

def closedInText (rest : List Char) : List Closing :=
  match taken : takeText rest with
  | (_, '{' :: '{' :: inside) =>
    match read : takeBody? false inside with
    | none => []
    | some (body, after) =>
      have := take_path_shrinks taken read
      ⟨'{' :: '{' :: inside, String.ofList body⟩ :: closedInText after
  | _ => []
termination_by rest.length

def closedInBody (triple : Bool) (opened inside : List Char)
    (behind : List Char → List Closing) : List Closing :=
  match takeBody? triple inside with
  | none => []
  | some (body, after) => ⟨opened, String.ofList body⟩ :: behind after

/-- The markers that are closed in a string. Only one is, if it spans the string. -/
def closedIn (source : List Char) : List Closing :=
  match takeOpener? source with
  | some (kind, inside) => closedInBody (kind = .raw) source inside fun _ => []
  | none => closedInText source

theorem closed_in_text_end {rest text : List Char} (taken : takeText rest = (text, [])) :
    closedInText rest = [] := by
  rw [closedInText]
  split
  · rename_i inside opens
    rw [taken] at opens
    cases opens
  · rfl

theorem closed_in_text_path {rest text inside : List Char}
    (taken : takeText rest = (text, '{' :: '{' :: inside)) :
    closedInText rest = closedInBody false ('{' :: '{' :: inside) inside closedInText := by
  rw [closedInText, closedInBody]
  split
  · rename_i opens
    rw [taken] at opens
    cases opens
    split <;> simp_all
  · rename_i other
    exact absurd taken (other text inside)

def State.closes : State π → List Closing
  | ⟨.start, rest⟩ => closedIn rest
  | ⟨.text _, rest⟩ => closedInText rest
  | ⟨.path _ opened, rest⟩ => closedInBody false opened rest closedInText
  | ⟨.whole kind opened, rest⟩ => closedInBody (kind = .raw) opened rest fun _ => []
  | ⟨.closed _ _, _⟩ => []

def Reading.paths : Reading π → List π
  | .literal _ => []
  | .interpolation tokens => tokens.filterMap Token.path?
  | .whole _ path => [path]

def Phase.paths : Phase π → List π
  | .start => []
  | .text before => before.reverse.filterMap Token.path?
  | .path before _ => before.reverse.filterMap Token.path?
  | .whole _ _ => []
  | .closed _ compiled => [compiled]

def Accepts (compile : String → Except String π) (path : String) : Prop :=
  ∃ compiled, compile path = .ok compiled

theorem accepts_of_compiled {α : Type} {text : α → String} {sources : List α} {paths : List π}
    (compiled : List.Forall₂ (fun source path => compile (text source) = .ok path) sources paths) :
    ∀ source ∈ sources, Accepts compile (text source) := by
  induction compiled with
  | nil => simp
  | cons first more ih =>
    rw [List.forall_mem_cons]
    exact ⟨⟨_, first⟩, ih⟩

def AllCompile (compile : String → Except String π) : List Closing → List π → Prop :=
  List.Forall₂ fun closing path => compile closing.path = .ok path

/-- What a step does about the markers that are to be closed: it closes none of them or the first
one, whose path it compiles. -/
inductive Step.Closes (compile : String → Except String π) (s : State π) : Step π → Prop where
  | finish {reading : Reading π} (none : s.closes = []) (paths : reading.paths = s.phase.paths) :
      Closes compile s (.finish reading)
  | fault {cause : Cause} {rest : List Char} (none : s.closes = [])
      (other : ∀ path reason, cause ≠ .invalidPath path reason) :
      Closes compile s (.fault cause rest)
  | refused {closing : Closing} {behind : List Closing} {reason : String}
      (first : s.closes = closing :: behind) (refused : compile closing.path = .error reason) :
      Closes compile s (.fault (.invalidPath closing.path reason) closing.opened)
  | next {t : State π} {closed : List Closing} {paths : List π}
      (first : s.closes = closed ++ t.closes) (compiled : AllCompile compile closed paths)
      (grown : t.phase.paths = s.phase.paths ++ paths) : Closes compile s (.next t)

theorem push_text_paths (text : List Char) (before : List (Token π)) :
    (pushText text before).reverse.filterMap Token.path? =
      before.reverse.filterMap Token.path? := by
  unfold pushText
  split <;> simp [Token.path?]

theorem finish_text_paths (text : List Char) (before : List (Token π)) :
    (finishText text before).paths = before.reverse.filterMap Token.path? := by
  unfold finishText
  split
  · simp_all [Reading.paths]
  · exact push_text_paths text before

theorem step_text_closes (before : List (Token π)) (rest : List Char) {s : State π}
    (here : s.closes = closedInText rest)
    (same : s.phase.paths = before.reverse.filterMap Token.path?) :
    (stepText before rest).Closes compile s := by
  rcases taken : takeText rest with ⟨text, opened⟩
  have stops := take_text_stops rest
  simp only [taken] at stops
  rcases stops with rfl | ⟨inside, rfl, _⟩
  · have none := here.trans (closed_in_text_end taken)
    simpa [stepText, taken] using .finish none ((finish_text_paths text before).trans same.symm)
  · have first := here.trans (closed_in_text_path taken)
    have same : Phase.paths (.path (pushText text before) ('{' :: '{' :: inside)) =
        s.phase.paths ++ [] := by
      rw [List.append_nil, same]
      exact push_text_paths text before
    simp only [stepText, taken]
    exact .next first .nil same

theorem step_body_closes {triple : Bool} {opened rest : List Char} {close : π → Phase π}
    {behind : List Char → List Closing} {s : State π}
    (here : s.closes = closedInBody triple opened rest behind)
    (later : ∀ path after, State.closes ⟨close path, after⟩ = behind after)
    (grown : ∀ path, (close path).paths = s.phase.paths ++ [path]) :
    (stepBody compile triple opened rest close).Closes compile s := by
  unfold stepBody
  unfold closedInBody at here
  cases read : takeBody? triple rest with
  | none =>
    simp only [read] at here
    exact .fault here (by simp)
  | some result =>
    obtain ⟨body, after⟩ := result
    simp only [read] at here
    cases compiled : compile (String.ofList body) with
    | error reason => simpa only [compiled] using .refused here compiled
    | ok path =>
      simp only [compiled]
      have first : s.closes =
          [⟨opened, String.ofList body⟩] ++ State.closes ⟨close path, after⟩ := by
        rw [here, later]
        rfl
      exact .next first (.cons compiled .nil) (grown path)

theorem step_closes (s : State π) : (step compile s).Closes compile s := by
  obtain ⟨phase, rest⟩ := s
  cases phase with
  | start =>
    simp only [step]
    split
    · rename_i kind inside opens
      have first : State.closes (⟨.start, rest⟩ : State π) =
          [] ++ State.closes (⟨.whole kind rest, inside⟩ : State π) := by
        simp [State.closes, closedIn, opens]
      exact .next first .nil rfl
    · rename_i plain
      exact step_text_closes [] rest (by simp [State.closes, closedIn, plain]) rfl
  | text before => exact step_text_closes before rest rfl rfl
  | path before opened =>
    have here : State.closes ⟨.path before opened, rest⟩ =
        closedInBody false opened rest closedInText := rfl
    exact step_body_closes here (fun _ _ => rfl) fun path => by simp [Phase.paths, Token.path?]
  | whole kind opened =>
    have here : State.closes (⟨.whole kind opened, rest⟩ : State π) =
        closedInBody (kind = .raw) opened rest fun _ => [] := rfl
    exact step_body_closes here (fun _ _ => rfl) fun _ => rfl
  | closed kind path =>
    simp only [step]
    split
    · exact .finish rfl rfl
    · exact .fault rfl (by simp)

inductive Ends (compile : String → Except String π) (s : State π) :
    Except (Cause × List Char) (Reading π) → Prop where
  | ok {reading : Reading π} {paths : List π} (compiled : AllCompile compile s.closes paths)
      (grown : reading.paths = s.phase.paths ++ paths) : Ends compile s (.ok reading)
  | fault {cause : Cause} {rest : List Char} {paths : List π}
      (compiled : AllCompile compile s.closes paths)
      (other : ∀ path reason, cause ≠ .invalidPath path reason) :
      Ends compile s (.error (cause, rest))
  | refused {before behind : List Closing} {closing : Closing} {paths : List π} {reason : String}
      (first : s.closes = before ++ closing :: behind) (compiled : AllCompile compile before paths)
      (refused : compile closing.path = .error reason) :
      Ends compile s (.error (.invalidPath closing.path reason, closing.opened))

theorem run_ends (s : State π) : Ends compile s (run compile s) := by
  induction length : s.rest.length using Nat.strongRecOn generalizing s with
  | ind n ih =>
    have closes : (step compile s).Closes compile s := step_closes s
    generalize taken : step compile s = outcome at closes
    cases closes with
    | finish none paths =>
      rw [run_finish taken]
      have compiled : AllCompile compile s.closes [] := none ▸ .nil
      exact .ok compiled (by simpa using paths)
    | fault none other =>
      rw [run_fault taken]
      have compiled : AllCompile compile s.closes [] := none ▸ .nil
      exact .fault compiled other
    | refused first refused =>
      rw [run_fault taken]
      exact .refused first .nil refused
    | @next t closed paths first compiled grown =>
      rw [run_next taken]
      have rest := ih _ (length ▸ step_shrinks taken) t rfl
      generalize run compile t = result at rest
      cases rest with
      | @ok reading more tail further =>
        have all : AllCompile compile s.closes (paths ++ more) := by
          rw [first]
          exact List.rel_append compiled tail
        refine .ok all ?_
        rw [further, grown, List.append_assoc]
      | @fault cause rest more tail other =>
        have all : AllCompile compile s.closes (paths ++ more) := by
          rw [first]
          exact List.rel_append compiled tail
        exact .fault all other
      | @refused before behind closing more reason second tail refused =>
        have all : AllCompile compile (closed ++ before) (paths ++ more) :=
          List.rel_append compiled tail
        have here : s.closes = (closed ++ before) ++ closing :: behind := by
          rw [first, second, List.append_assoc]
        exact .refused here all refused

theorem scan_refuses {source path reason : String} {fault : Fault}
    (failed : scan compile source = .error fault)
    (invalid : fault.cause = .invalidPath path reason) : compile path = .error reason := by
  have ends : Ends compile ⟨.start, source.toList⟩ _ := run_ends ⟨.start, source.toList⟩
  unfold scan at failed
  generalize run compile ⟨.start, source.toList⟩ = result at ends failed
  cases ends with
  | ok compiled grown => contradiction
  | fault compiled other =>
    cases failed
    exact absurd invalid (other path reason)
  | refused first compiled refused =>
    cases failed
    cases invalid
    exact refused

/-- A marker that is closed, by its place: the string, the index of its first brace, and the text
of its path. -/
structure Site where
  source : String
  index : Nat
  path : String
deriving DecidableEq

def Site.refused (site : Site) (reason : String) : Fault :=
  ⟨.invalidPath site.path reason, site.source, site.index⟩

/-- A site is a marker by the grammar: one at the start that is to span the string, or one in
text. -/
inductive Site.IsMarker : Site → Prop where
  | whole {source : String} (kind : Kind) {body : List Piece} {inside after : List Char}
      (spelled : source.toList = opener kind ++ inside)
      (closed : Body (kind = .raw) body inside after) :
      IsMarker ⟨source, 0, String.ofList (bodyText body)⟩
  | path {source : String} {before inside after : List Char} {body : List Piece}
      (spelled : source.toList = before ++ '{' :: '{' :: inside) (plain : NoOperator inside)
      (closed : Body false body inside after) :
      IsMarker ⟨source, before.length, String.ofList (bodyText body)⟩

def siteOf (source : String) (closing : Closing) : Site :=
  ⟨source, source.length - closing.opened.length, closing.path⟩

def sitesOf (source : String) : List Site := (closedIn source.toList).map (siteOf source)

theorem site_index {source : String} {before opened : List Char} (path : String)
    (spelled : source.toList = before ++ opened) :
    siteOf source ⟨opened, path⟩ = ⟨source, before.length, path⟩ := by
  simp only [siteOf, Site.mk.injEq, true_and, and_true, ← String.length_toList, spelled,
    List.length_append]
  omega

theorem closed_in_text_markers {source : String} {rest : List Char}
    (inside : rest <:+ source.toList) :
    ∀ closing ∈ closedInText rest, (siteOf source closing).IsMarker := by
  induction length : rest.length using Nat.strongRecOn generalizing rest with
  | ind n ih =>
    have ends := (take_text_suffix rest).trans inside
    have stops := take_text_stops rest
    rcases taken : takeText rest with ⟨text, opened⟩
    simp only [taken] at ends stops
    rcases stops with rfl | ⟨inner, rfl, plain⟩
    · simp [closed_in_text_end taken]
    · rw [closed_in_text_path taken, closedInBody]
      cases read : takeBody? false inner with
      | none => simp
      | some result =>
        obtain ⟨text, after⟩ := result
        obtain ⟨body, closed, rfl⟩ := take_body_derived read
        obtain ⟨before, spelled⟩ := ends
        have behind : after <:+ source.toList :=
          (rest_of_brace (brace_before_rest closed)).trans
            ((List.suffix_append ['{', '{'] inner).trans ⟨before, spelled⟩)
        have shorter := take_path_shrinks taken read
        intro closing member
        rcases List.mem_cons.mp member with rfl | later
        · rw [site_index _ spelled.symm]
          exact .path spelled.symm plain closed
        · exact ih _ (length ▸ shorter) behind rfl closing later

theorem sites_are_markers (source : String) : ∀ site ∈ sitesOf source, site.IsMarker := by
  intro site member
  obtain ⟨closing, there, rfl⟩ := List.mem_map.mp member
  unfold closedIn at there
  split at there
  · rename_i kind inside opens
    have spelled := take_opener_iff.mp opens
    unfold closedInBody at there
    split at there
    · simp at there
    · rename_i text after read
      obtain ⟨body, closed, rfl⟩ := take_body_derived read
      rw [List.mem_singleton] at there
      subst there
      have start : source.toList = [] ++ source.toList := rfl
      rw [site_index _ start]
      exact .whole kind spelled closed
  · exact closed_in_text_markers List.suffix_rfl closing there

inductive Scans (compile : String → Except String π) (source : String) : Prop where
  | reads {texts : Reading String} {reading : Reading π} (plain : scan .ok source = .ok texts)
      (scanned : scan compile source = .ok reading) (same : texts.Compiles compile reading)
      (paths : List.Forall₂ (fun site path => compile site.path = .ok path) (sitesOf source)
        reading.paths)
  | fails {fault : Fault} (plain : scan .ok source = .error fault)
      (failed : scan compile source = .error fault)
      (accepted : ∀ site ∈ sitesOf source, Accepts compile site.path)
  | refuses {before behind : List Site} {site : Site} {reason : String}
      (first : sitesOf source = before ++ site :: behind)
      (accepted : ∀ other ∈ before, Accepts compile other.path)
      (refused : compile site.path = .error reason)
      (failed : scan compile source = .error (site.refused reason))

theorem sites_accepted {closings : List Closing} {paths : List π}
    (compiled : AllCompile compile closings paths) (source : String) :
    ∀ site ∈ closings.map (siteOf source), Accepts compile site.path := by
  rw [List.forall_mem_map]
  exact accepts_of_compiled compiled

theorem scan_of_run {source : String} {result : Except (Cause × List Char) (Reading π)}
    (ran : run compile ⟨.start, source.toList⟩ = result) :
    scan compile source =
      result.mapError fun fault => ⟨fault.1, source, source.length - fault.2.length⟩ := by
  unfold scan
  rw [ran]
  cases result <;> rfl

theorem scan_ends (compile : String → Except String π) (source : String) :
    Scans compile source := by
  have start : State.Compiles compile ⟨.start, source.toList⟩ ⟨.start, source.toList⟩ :=
    ⟨rfl, .start⟩
  have sides := run_compiles start
  have ends : Ends compile ⟨.start, source.toList⟩ _ := run_ends ⟨.start, source.toList⟩
  generalize ran : run compile ⟨.start, source.toList⟩ = result at ends sides
  cases ends with
  | ok compiled grown =>
    rcases sides with ⟨texts, reading, plain, same, alike⟩ | ⟨_, _, other⟩ | ⟨_, _, _, _, other⟩
    · cases same
      refine .reads (scan_of_run plain) (scan_of_run ran) alike ?_
      rw [sitesOf, List.forall₂_map_left_iff, grown]
      exact compiled
    · contradiction
    · contradiction
  | fault compiled other =>
    rcases sides with ⟨_, _, _, same, _⟩ | ⟨fault, plain, same⟩ | ⟨path, reason, _, _, same⟩
    · contradiction
    · cases same
      exact .fails (scan_of_run plain) (scan_of_run ran) (sites_accepted compiled source)
    · cases same
      exact absurd rfl (other path reason)
  | @refused before behind closing paths reason first compiled refused =>
    have sites : sitesOf source = before.map (siteOf source) ++
        siteOf source closing :: behind.map (siteOf source) := by
      have here : closedIn source.toList = before ++ closing :: behind := first
      rw [sitesOf, here, List.map_append, List.map_cons]
    exact .refuses sites (sites_accepted compiled source) refused (scan_of_run ran)

end Stencil.Marker
