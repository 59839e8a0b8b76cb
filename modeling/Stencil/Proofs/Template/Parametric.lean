import Mathlib.Data.List.Permutation
import Stencil.Path.Verbatim
import Stencil.Proofs.Marker.Closing
import Stencil.Proofs.Template.Compile
import Stencil.Proofs.Template.Paths

/-!
Compilation does not look into its paths. A template is compiled with the paths left as text, and
then the text of each path is compiled. What happens on the way is one list of events, read off
the template alone: markers are closed and faults are found. The first event that a path language
does not stand ends its compilation.
-/
namespace Stencil.Template

open Marker

variable {π : Type} (language : PathLanguage π)

/-- The language whose paths are their own text; it accepts every text. -/
def asText : PathLanguage String := ⟨.ok, fun _ _ _ => .ok [], id⟩

inductive Event where
  | closed (site : Site)
  | found (fault : CompileFault)

def Event.site? : Event → Option Site
  | .closed site => some site
  | .found _ => none

def Event.failure? (compile : String → Except String π) : Event → Option CompileFault
  | .closed site =>
    match compile site.path with
    | .ok _ => none
    | .error reason => some (.malformed (site.refused reason))
  | .found fault => some fault

def closedEvents (closed : List Site) : List Event := closed.map .closed

def faultEvents {α : Type} : Except CompileFault α → List Event
  | .ok _ => []
  | .error fault => [.found fault]

def keyEvents (count : Nat) : Scalar → List Event
  | .string s =>
    closedEvents (sitesOf s) ++
      match keyOf asText (.string s) with
      | .error fault => [.found fault]
      | .ok (.name _) => []
      | .ok (.sectionOf _) => if count = 1 then [] else [.found (.sectionNotAlone (.string s))]
  | key => [.found (.keyNotString key)]

mutual

/-- What happens to a template, as if no event ended the compilation. The value of a member comes
before its key. -/
def events : Value → List Event
  | .scalar (.string s) => closedEvents (sitesOf s) ++ faultEvents (ofString asText s)
  | .scalar _ => []
  | .array items => itemEvents items
  | .object members => memberEvents members.length members

def itemEvents : List Value → List Event
  | [] => []
  | item :: items => events item ++ itemEvents items

def memberEvents (count : Nat) : List (Scalar × Value) → List Event
  | [] => []
  | (key, value) :: members => events value ++ keyEvents count key ++ memberEvents count members

end

/-- The markers that are closed before the first fault is found. -/
def closedFirst : List Event → List Site
  | .closed site :: events => site :: closedFirst events
  | _ => []

def sites (template : Value) : List Site := closedFirst (events template)

theorem closed_accepted {compile : String → Except String π} {closed : List Site}
    (accepted : ∀ site ∈ closed, Accepts compile site.path) :
    (closedEvents closed).findSome? (Event.failure? compile) = none := by
  rw [closedEvents, List.findSome?_eq_none_iff, List.forall_mem_map]
  intro site member
  obtain ⟨path, compiled⟩ := accepted site member
  simp [Event.failure?, compiled]

theorem closed_refused {compile : String → Except String π} {before behind : List Site}
    {site : Site} {reason : String} (accepted : ∀ other ∈ before, Accepts compile other.path)
    (refused : compile site.path = .error reason) :
    (closedEvents (before ++ site :: behind)).findSome? (Event.failure? compile) =
      some (.malformed (site.refused reason)) := by
  have earlier := closed_accepted accepted
  rw [closedEvents] at earlier
  simp [closedEvents, List.findSome?_append, earlier, Event.failure?, refused]

theorem fault_events_failure {α : Type} (compile : String → Except String π)
    (outcome : Except CompileFault α) :
    (faultEvents outcome).findSome? (Event.failure? compile) = failureOf outcome := by
  cases outcome <;> rfl

theorem string_alike {s : String} {texts : Reading String} {reading : Reading π}
    (plain : scan .ok s = .ok texts) (scanned : scan language.compile s = .ok reading)
    (same : texts.Compiles language.compile reading) :
    failureOf (ofString language s) = failureOf (ofString asText s) := by
  cases same with
  | literal text => simp [ofString, asText, plain, scanned, failureOf]
  | interpolation each => simp [ofString, asText, plain, scanned, failureOf]
  | whole kind compiled =>
    cases kind <;> simp [ofString, asText, plain, scanned, failureOf, Reading.name]

theorem string_failure (s : String) :
    failureOf (ofString language s) =
      (events (.scalar (.string s))).findSome? (Event.failure? language.compile) := by
  rw [events, List.findSome?_append, fault_events_failure]
  cases scan_ends language.compile s with
  | reads plain scanned same paths =>
    rw [closed_accepted (accepts_of_compiled paths), string_alike language plain scanned same]
    rfl
  | fails plain failed accepted =>
    rw [closed_accepted accepted]
    simp [ofString, asText, plain, failed, failureOf]
  | refuses first accepted refused failed =>
    rw [first, closed_refused accepted refused]
    simp [ofString, failed, failureOf]

theorem key_failure (count : Nat) (key : Scalar) :
    (keyEvents count key).findSome? (Event.failure? language.compile) =
      match keyOf language key with
      | .error fault => some fault
      | .ok (.name _) => none
      | .ok (.sectionOf _) => if count = 1 then none else some (.sectionNotAlone key) := by
  cases key with
  | string s =>
    rw [keyEvents, List.findSome?_append]
    cases scan_ends language.compile s with
    | reads plain scanned same paths =>
      rw [closed_accepted (accepts_of_compiled paths)]
      cases same with
      | literal text => simp [keyOf, asText, plain, scanned]
      | interpolation each =>
        simp [keyOf, asText, plain, scanned, Reading.name, Event.failure?]
      | whole kind compiled =>
        cases kind with
        | sectionOf =>
          simp only [keyOf, asText, plain, scanned]
          split <;> rfl
        | _ => simp [keyOf, asText, plain, scanned, Reading.name, Event.failure?]
    | fails plain failed accepted =>
      rw [closed_accepted accepted]
      simp [keyOf, asText, plain, failed, Event.failure?]
    | refuses first accepted refused failed =>
      rw [first, closed_refused accepted refused]
      simp [keyOf, failed]
  | _ => rfl

mutual

theorem failure_of_value : (value : Value) →
    failureOf (ofValue language value) =
      (events value).findSome? (Event.failure? language.compile)
  | .scalar s => by
    cases s with
    | string s => exact string_failure language s
    | _ => rfl
  | .array items => by
    rw [ofValue, events, ← failure_of_items items]
    exact failure_map _ _
  | .object [] => rfl
  | .object [(key, value)] => by
    rw [ofValue, events, memberEvents, memberEvents, List.append_nil]
    apply failure_bind (failure_of_value value)
    intro body compiled
    rw [key_failure]
    cases keyed : keyOf language key with
    | error fault => rfl
    | ok read => cases read <;> rfl
  | .object (first :: second :: members) => by
    have several : (first :: second :: members).length ≠ 1 := by simp
    rw [of_object_several language several, events,
      ← failure_of_members several (first :: second :: members)]
    exact failure_map _ _

theorem failure_of_items : (items : List Value) →
    failureOf (ofItems language items) =
      (itemEvents items).findSome? (Event.failure? language.compile)
  | [] => rfl
  | item :: items => by
    rw [ofItems, itemEvents]
    apply failure_bind (failure_of_value item)
    intro node compiled
    rw [← failure_of_items items]
    exact failure_map _ _

theorem failure_of_members {count : Nat} (several : count ≠ 1) :
    (members : List (Scalar × Value)) →
    failureOf (ofMembers language members) =
      (memberEvents count members).findSome? (Event.failure? language.compile)
  | [] => rfl
  | (key, value) :: members => by
    rw [ofMembers, memberEvents, List.append_assoc]
    apply failure_bind (failure_of_value value)
    intro node compiled
    rw [List.findSome?_append, key_failure, ← failure_of_members several members]
    cases keyed : keyOf language key with
    | error fault => rfl
    | ok read =>
      cases read with
      | name text => exact failure_map _ _
      | sectionOf path => simp [several, ok_bind, failureOf]

end

def Supplies (events : List Event) (paths : List π) : Prop :=
  List.Forall₂ (fun site path => language.compile site.path = .ok path)
    (events.filterMap Event.site?) paths

theorem Supplies.append {first second : List Event} {paths more : List π}
    (one : Supplies language first paths) (two : Supplies language second more) :
    Supplies language (first ++ second) (paths ++ more) := by
  rw [Supplies, List.filterMap_append]
  exact List.rel_append one two

theorem sites_of_closed (closed : List Site) :
    (closedEvents closed).filterMap Event.site? = closed := by
  rw [closedEvents, List.filterMap_map]
  exact List.filterMap_some

theorem sites_of_faults {α : Type} (outcome : Except CompileFault α) :
    (faultEvents outcome).filterMap Event.site? = [] := by
  cases outcome <;> rfl

theorem token_compiled {compile : String → Except String π} {text : Token String} {token : Token π}
    (compiled : Token.Compiles compile text token) : text.compilePath compile = .ok token := by
  cases compiled with
  | text s => rfl
  | path done =>
    rw [Token.compilePath, done]
    rfl

theorem string_supplies {s : String} {compiled : Template π}
    (success : ofString language s = .ok compiled) :
    ∃ texts, ofString asText s = .ok texts ∧
      texts.compilePaths language.compile = .ok compiled ∧
      Supplies language (events (.scalar (.string s))) compiled.paths := by
  have supplied : ∀ {paths : List π},
      List.Forall₂ (fun site path => language.compile site.path = .ok path) (sitesOf s) paths →
      Supplies language (events (.scalar (.string s))) paths := by
    intro paths compiled
    rwa [Supplies, events, List.filterMap_append, sites_of_closed, sites_of_faults, List.append_nil]
  cases scan_ends language.compile s with
  | reads plain scanned same paths =>
    cases same with
    | literal text =>
      simp only [ofString, scanned] at success
      cases success
      exact ⟨.literal (.string text), by simp [ofString, asText, plain], rfl, supplied paths⟩
    | @interpolation texts tokens each =>
      simp only [ofString, scanned] at success
      cases success
      refine ⟨.interpolation texts, by simp [ofString, asText, plain], ?_, supplied paths⟩
      rw [compilePaths, mapM_ok_iff.mpr (each.imp fun _ _ => token_compiled)]
      rfl
    | @whole kind text path done =>
      cases kind with
      | raw =>
        simp only [ofString, scanned] at success
        cases success
        refine ⟨.raw text, by simp [ofString, asText, plain], ?_, supplied paths⟩
        rw [compilePaths, done]
        rfl
      | unquote =>
        simp only [ofString, scanned] at success
        cases success
        refine ⟨.unquote text, by simp [ofString, asText, plain], ?_, supplied paths⟩
        rw [compilePaths, done]
        rfl
      | sectionOf => simp [ofString, scanned] at success
      | switch => simp [ofString, scanned] at success
  | fails plain failed accepted => simp [ofString, failed] at success
  | refuses first accepted refused failed => simp [ofString, failed] at success

theorem key_supplies {key : Scalar} {read : Key π} (keyed : keyOf language key = .ok read)
    (count : Nat) :
    (∃ text, read = .name text ∧ keyOf asText key = .ok (.name text) ∧
      Supplies language (keyEvents count key) []) ∨
    ∃ text path, read = .sectionOf path ∧ keyOf asText key = .ok (.sectionOf text) ∧
      language.compile text = .ok path ∧ Supplies language (keyEvents count key) [path] := by
  obtain ⟨s, reading, rfl, scanned, shape⟩ := key_of_ok language keyed
  cases scan_ends language.compile s with
  | reads plain other same paths =>
    rw [scanned] at other
    cases other
    rcases shape with ⟨text, rfl, rfl⟩ | ⟨path, rfl, rfl⟩
    · cases same
      have name : keyOf asText (.string s) = .ok (.name text) := by simp [keyOf, asText, plain]
      refine .inl ⟨text, rfl, name, ?_⟩
      rw [Supplies, keyEvents, name, List.append_nil, sites_of_closed]
      exact paths
    · cases same with
      | @whole _ text _ compiled =>
        have marker : keyOf asText (.string s) = .ok (.sectionOf text) := by
          simp [keyOf, asText, plain]
        refine .inr ⟨text, path, rfl, marker, compiled, ?_⟩
        have behind : (if count = 1 then [] else
            [Event.found (.sectionNotAlone (.string s))]).filterMap Event.site? = [] := by
          split <;> rfl
        rw [Supplies, keyEvents, marker, List.filterMap_append, sites_of_closed, behind,
          List.append_nil]
        exact paths
  | fails plain failed accepted => simp [scanned] at failed
  | refuses first accepted refused failed => simp [scanned] at failed

mutual

/-- What compiles is the template compiled with its paths as text, with these texts compiled, and
its paths are those of the closed markers. -/
theorem value_supplies : (value : Value) → {compiled : Template π} →
    ofValue language value = .ok compiled →
    ∃ texts, ofValue asText value = .ok texts ∧
      texts.compilePaths language.compile = .ok compiled ∧
      Supplies language (events value) compiled.paths
  | .scalar s, compiled, success => by
    cases s with
    | string s => exact string_supplies language success
    | _ =>
      cases success
      exact ⟨.literal _, rfl, rfl, .nil⟩
  | .array items, compiled, success => by
    rw [ofValue] at success
    obtain ⟨nodes, each, finish⟩ := bind_ok success
    cases finish
    obtain ⟨texts, plain, same, supplied⟩ := items_supply items each
    exact ⟨.array texts, by rw [ofValue, plain]; rfl, by rw [compilePaths, same]; rfl, supplied⟩
  | .object members, compiled, success => by
    rcases of_object_ok language success with
      ⟨key, value, path, body, rfl, keyed, inner, rfl⟩ | ⟨nodes, each, rfl⟩
    · obtain ⟨texts, plain, same, supplied⟩ := value_supplies value inner
      rcases key_supplies language keyed 1 with
        ⟨_, other, _⟩ | ⟨text, _, read, marker, done, last⟩
      · contradiction
      · cases read
        refine ⟨.sectionOf text texts, ?_, ?_, ?_⟩
        · rw [ofValue, plain, ok_bind, marker]
          rfl
        · rw [compilePaths, same, ok_bind, done]
          rfl
        · rw [events, memberEvents, memberEvents, List.append_nil, paths]
          exact supplied.append language last
    · obtain ⟨texts, plain, same, supplied⟩ := members_supply members.length members each
      refine ⟨.object texts, of_object_of_members asText plain, ?_, supplied⟩
      rw [compilePaths, same]
      rfl

theorem items_supply : (items : List Value) → {nodes : List (Template π)} →
    ofItems language items = .ok nodes →
    ∃ texts, ofItems asText items = .ok texts ∧
      compileItemPaths language.compile texts = .ok nodes ∧
      Supplies language (itemEvents items) (itemPaths nodes)
  | [], nodes, success => by
    cases success
    exact ⟨[], rfl, rfl, .nil⟩
  | item :: items, nodes, success => by
    obtain ⟨node, others, first, more, rfl⟩ := of_items_cons_ok language success
    obtain ⟨text, plain, same, supplied⟩ := value_supplies item first
    obtain ⟨texts, plains, alike, behind⟩ := items_supply items more
    refine ⟨text :: texts, ?_, ?_, supplied.append language behind⟩
    · rw [ofItems, plain, ok_bind, plains]
      rfl
    · rw [compileItemPaths, same, ok_bind, alike]
      rfl

theorem members_supply (count : Nat) : (members : List (Scalar × Value)) →
    {nodes : List (String × Template π)} → ofMembers language members = .ok nodes →
    ∃ texts, ofMembers asText members = .ok texts ∧
      compileMemberPaths language.compile texts = .ok nodes ∧
      Supplies language (memberEvents count members) (memberPaths nodes)
  | [], nodes, success => by
    cases success
    exact ⟨[], rfl, rfl, .nil⟩
  | (key, value) :: members, nodes, success => by
    obtain ⟨name, node, others, keyed, first, more, rfl⟩ := of_members_cons_ok language success
    obtain ⟨text, plain, same, supplied⟩ := value_supplies value first
    obtain ⟨texts, plains, alike, behind⟩ := members_supply count members more
    rcases key_supplies language keyed count with ⟨_, read, named, none⟩ | ⟨_, _, other, _⟩
    · cases read
      refine ⟨(name, text) :: texts, ?_, ?_, ?_⟩
      · rw [ofMembers, plain, ok_bind, named, ok_bind, plains]
        rfl
      · rw [compileMemberPaths, same, ok_bind, alike]
        rfl
      · have here := (supplied.append language none).append language behind
        rwa [List.append_nil] at here
    · contradiction

end

theorem closed_first_split (events : List Event) :
    events = closedEvents (closedFirst events) ∨
      ∃ fault behind, events = closedEvents (closedFirst events) ++ .found fault :: behind := by
  induction events with
  | nil => exact .inl rfl
  | cons event events ih =>
    cases event with
    | found fault => exact .inr ⟨fault, events, rfl⟩
    | closed site =>
      rcases ih with all | ⟨fault, behind, split⟩
      · exact .inl (congrArg (.closed site :: ·) all)
      · exact .inr ⟨fault, behind, congrArg (.closed site :: ·) split⟩

theorem failure_if_accepted {template : Value}
    (accepted : ∀ site ∈ sites template, Accepts language.compile site.path) :
    failureOf (ofValue language template) = failureOf (ofValue asText template) := by
  have plain : ∀ site ∈ sites template, Accepts asText.compile site.path :=
    fun site _ => ⟨site.path, rfl⟩
  rw [failure_of_value, failure_of_value]
  rcases closed_first_split (events template) with all | ⟨fault, behind, split⟩
  · rw [all]
    exact (closed_accepted accepted).trans (closed_accepted plain).symm
  · rw [split, List.findSome?_append, List.findSome?_append]
    have first := closed_accepted accepted
    have second := closed_accepted plain
    rw [sites] at first second
    rw [first, second]
    rfl

theorem failure_if_refused {template : Value} {before behind : List Site} {site : Site}
    {reason : String} (closed : sites template = before ++ site :: behind)
    (accepted : ∀ other ∈ before, Accepts language.compile other.path)
    (refused : language.compile site.path = .error reason) :
    failureOf (ofValue language template) = some (.malformed (site.refused reason)) := by
  have first : (closedEvents (sites template)).findSome? (Event.failure? language.compile) =
      some (.malformed (site.refused reason)) := by
    rw [closed, closed_refused accepted refused]
  rw [sites] at first
  rw [failure_of_value]
  rcases closed_first_split (events template) with all | ⟨fault, behind, split⟩
  · rw [all]
    exact first
  · rw [split, List.findSome?_append, first]
    rfl

theorem sites_of_compiled {template : Value} {compiled : Template π}
    (success : ofValue language template = .ok compiled) :
    (events template).filterMap Event.site? = sites template := by
  have none := failure_of_value language template
  rw [success] at none
  rcases closed_first_split (events template) with all | ⟨fault, behind, split⟩
  · rw [all, sites_of_closed]
    rfl
  · rw [split, List.findSome?_append, List.findSome?_cons] at none
    simp [failureOf, Event.failure?] at none

theorem paths_as_text {template : Value} {texts : Template String}
    (plain : ofValue asText template = .ok texts) :
    texts.paths = (sites template).map Site.path := by
  obtain ⟨_, _, _, supplied⟩ := value_supplies asText template plain
  rw [Supplies, sites_of_compiled asText plain] at supplied
  have same : List.Forall₂ (· = ·) ((sites template).map Site.path) texts.paths :=
    List.forall₂_map_left_iff.mpr (supplied.imp fun site path compiled => Except.ok.inj compiled)
  rw [List.forall₂_eq_eq_eq] at same
  exact same.symm

theorem key_events_are_markers (count : Nat) (key : Scalar) :
    ∀ site ∈ (keyEvents count key).filterMap Event.site?, site.IsMarker := by
  intro site member
  cases key with
  | string s =>
    rw [keyEvents, List.filterMap_append, sites_of_closed, List.mem_append] at member
    rcases member with closed | other
    · exact sites_are_markers s site closed
    · split at other
      · simp [Event.site?] at other
      · simp at other
      · split at other <;> simp [Event.site?] at other
  | _ => simp [keyEvents, Event.site?] at member

mutual

theorem events_are_markers : (value : Value) →
    ∀ site ∈ (events value).filterMap Event.site?, site.IsMarker
  | .scalar s => by
    intro site member
    cases s with
    | string s =>
      rw [events, List.filterMap_append, sites_of_closed, sites_of_faults,
        List.append_nil] at member
      exact sites_are_markers s site member
    | _ => simp [events] at member
  | .array items => item_events_are_markers items
  | .object members => member_events_are_markers members.length members

theorem item_events_are_markers : (items : List Value) →
    ∀ site ∈ (itemEvents items).filterMap Event.site?, site.IsMarker
  | [] => by simp [itemEvents]
  | item :: items => by
    intro site member
    rw [itemEvents, List.filterMap_append, List.mem_append] at member
    rcases member with first | later
    · exact events_are_markers item site first
    · exact item_events_are_markers items site later

theorem member_events_are_markers (count : Nat) : (members : List (Scalar × Value)) →
    ∀ site ∈ (memberEvents count members).filterMap Event.site?, site.IsMarker
  | [] => by simp [memberEvents]
  | (key, value) :: members => by
    intro site member
    rw [memberEvents, List.filterMap_append, List.filterMap_append, List.mem_append,
      List.mem_append] at member
    rcases member with (inner | own) | later
    · exact events_are_markers value site inner
    · exact key_events_are_markers count key site own
    · exact member_events_are_markers count members site later

end

theorem sites_are_closed (events : List Event) :
    ∀ site ∈ closedFirst events, site ∈ events.filterMap Event.site? := by
  intro site member
  rcases closed_first_split events with all | ⟨fault, behind, split⟩
  · rw [all, sites_of_closed]
    exact member
  · rw [split, List.filterMap_append, sites_of_closed]
    exact List.mem_append_left _ member

/-- Compiling a template is compiling it with its paths as text, and then compiling the text of
each path. If a path is refused, the first one that is ends the compilation, with its string and
the index of the first brace of its marker. If the template with its paths as text has a fault, it
is the same, unless a path is refused whose marker is closed before. -/
theorem compilation_is_parametric (template : Value) :
    (∀ texts, ofValue asText template = .ok texts →
      texts.paths = (sites template).map Site.path ∧
      ((∀ path ∈ texts.paths, Accepts language.compile path) →
        ∃ compiled, texts.compilePaths language.compile = .ok compiled ∧
          ofValue language template = .ok compiled)) ∧
    (∀ fault, ofValue asText template = .error fault →
      (∀ site ∈ sites template, Accepts language.compile site.path) →
      ofValue language template = .error fault) ∧
    (∀ before site behind reason, sites template = before ++ site :: behind →
      (∀ other ∈ before, Accepts language.compile other.path) →
      language.compile site.path = .error reason →
      ofValue language template =
        .error (.malformed ⟨.invalidPath site.path reason, site.source, site.index⟩)) ∧
    ∀ site ∈ sites template, site.IsMarker := by
  refine ⟨?_, ?_, ?_, ?_⟩
  · intro texts plain
    have paths := paths_as_text plain
    refine ⟨paths, ?_⟩
    intro accepted
    rw [paths, List.forall_mem_map] at accepted
    have success := failure_if_accepted language accepted
    rw [plain] at success
    obtain ⟨compiled, done⟩ := failure_none_iff.mp success
    obtain ⟨_, same, each, _⟩ := value_supplies language template done
    rw [plain] at same
    cases same
    exact ⟨compiled, each, done⟩
  · intro fault failed accepted
    have same := failure_if_accepted language accepted
    rw [failed] at same
    exact failure_some_iff.mp same
  · intro before site behind reason closed accepted refused
    exact failure_some_iff.mp (failure_if_refused language closed accepted refused)
  · intro site member
    exact events_are_markers template site (sites_are_closed _ site member)

theorem compilation_is_parametric_of_section :
    (ofValue asText (.object [(.string "\x7b\x7b#b\x7d\x7d", .string "x\x7b\x7ba\x7d\x7d")]) =
        .ok (.sectionOf "b" (.interpolation [.text "x", .path "a"])) ∧
      ∃ compiled, ofValue Path.Verbatim.language
        (.object [(.string "\x7b\x7b#b\x7d\x7d", .string "x\x7b\x7ba\x7d\x7d")]) = .ok compiled) ∧
    (ofValue asText (.string "\x7b\x7ba\x7d\x7d\x7b\x7b") =
        .error (.malformed ⟨.unterminated, "\x7b\x7ba\x7d\x7d\x7b\x7b", 5⟩) ∧
      ofValue Path.Verbatim.language (.string "\x7b\x7ba\x7d\x7d\x7b\x7b") =
        .error (.malformed ⟨.unterminated, "\x7b\x7ba\x7d\x7d\x7b\x7b", 5⟩)) ∧
    (sites (.object [(.string "\x7b\x7b#!\x7d\x7d", .string "x\x7b\x7ba!\x7d\x7d")]) =
        [⟨"x\x7b\x7ba!\x7d\x7d", 1, "a!"⟩, ⟨"\x7b\x7b#!\x7d\x7d", 0, "!"⟩] ∧
      ofValue Path.Verbatim.language
          (.object [(.string "\x7b\x7b#!\x7d\x7d", .string "x\x7b\x7ba!\x7d\x7d")]) =
        .error (.malformed ⟨.invalidPath "a!" "nope", "x\x7b\x7ba!\x7d\x7d", 1⟩)) := by
  refine ⟨?_, ?_, ?_⟩
  · have plain : ofValue asText
        (.object [(.string "\x7b\x7b#b\x7d\x7d", .string "x\x7b\x7ba\x7d\x7d")]) =
          .ok (.sectionOf "b" (.interpolation [.text "x", .path "a"])) := by cbv
    have accepted : ∀ path ∈
        (Template.sectionOf "b" (.interpolation [.text "x", .path "a"])).paths,
          Accepts Path.Verbatim.language.compile path := by
      intro path member
      simp only [paths, Token.path?, List.filterMap_cons, List.filterMap_nil, List.cons_append,
        List.nil_append, List.mem_cons, List.not_mem_nil, or_false] at member
      rcases member with rfl | rfl
      · exact ⟨"a", by decide⟩
      · exact ⟨"b", by decide⟩
    obtain ⟨compiled, _, done⟩ :=
      ((compilation_is_parametric Path.Verbatim.language _).1 _ plain).2 accepted
    exact ⟨plain, compiled, done⟩
  · have failed : ofValue asText (.string "\x7b\x7ba\x7d\x7d\x7b\x7b") =
        .error (.malformed ⟨.unterminated, "\x7b\x7ba\x7d\x7d\x7b\x7b", 5⟩) := by cbv
    have closed : sites (.string "\x7b\x7ba\x7d\x7d\x7b\x7b") =
        [⟨"\x7b\x7ba\x7d\x7d\x7b\x7b", 0, "a"⟩] := by cbv
    refine ⟨failed, (compilation_is_parametric Path.Verbatim.language _).2.1 _ failed ?_⟩
    simp [closed, Accepts, Path.Verbatim.language, Path.Verbatim.compile]
  · have closed : sites
        (.object [(.string "\x7b\x7b#!\x7d\x7d", .string "x\x7b\x7ba!\x7d\x7d")]) =
          [] ++ ⟨"x\x7b\x7ba!\x7d\x7d", 1, "a!"⟩ :: [⟨"\x7b\x7b#!\x7d\x7d", 0, "!"⟩] := by cbv
    have refused : Path.Verbatim.language.compile "a!" = .error "nope" := by decide
    exact ⟨closed, (compilation_is_parametric Path.Verbatim.language _).2.2.1 _ _ _ _ closed
      (by simp) refused⟩

end Stencil.Template
