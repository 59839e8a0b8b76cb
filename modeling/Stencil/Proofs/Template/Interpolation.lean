import Stencil.Proofs.Json.Ascii
import Stencil.Proofs.Json.RoundTrip
import Stencil.Proofs.Value.Text

/-!
Containers between other text. An array or an object is interpolated as its JSON text, which is
printed ASCII and from which it is decoded again; so no two of them are interpolated alike. Only a
container of a whole number that is too long is not interpolated.
-/
namespace Stencil.Template

/-- The text is what a path inserts wherever the value is all that it finds. -/
def Inserts (v : Value) (text : String) : Prop :=
  ∀ (π : Type) (language : PathLanguage π) (root current : Value) (path : π),
    language.evaluate root current path = .ok [v] →
      renderToken language root current (.path path) = .ok text

/-- An array or object made of null, booleans, whole numbers, strings, and arrays and objects of
these, whose keys are distinct strings. -/
structure WholeContainer (v : Value) : Prop where
  container : v.shape = .array ∨ v.shape = .object
  json : IsJson v
  whole : ∀ x, ¬ v.Contains (.float x)

theorem inserts_iff {v : Value} {text : String} : Inserts v text ↔ Written v text := by
  constructor
  · intro inserts
    let always : PathLanguage Unit := ⟨fun _ => .ok (), fun _ _ _ => .ok [v], fun _ => ""⟩
    exact write_value_ok_iff.mp (inserts Unit always .null .null () rfl)
  · intro written π language root current path found
    rw [renderToken, find_one_of_single language root found]
    exact write_value_ok_iff.mpr written

theorem written_container_iff {v : Value} (container : v.shape = .array ∨ v.shape = .object)
    {text : String} : Written v text ↔ ¬ HoldsLongNumber v ∧ text = Json.encode v := by
  constructor
  · intro written
    cases written with
    | array short => exact ⟨short, rfl⟩
    | object short => exact ⟨short, rfl⟩
    | _ => simp [Value.shape] at container
  · rintro ⟨short, rfl⟩
    cases v with
    | array items => exact .array short
    | object members => exact .object short
    | scalar s => cases s <;> simp [Value.shape] at container

/-- Interpolating a container loses nothing: what is inserted, if all its numbers can be written, is
its JSON text, which is printed ASCII, from which a JSON decoder makes the container again, members
in their order, and which is that of no other container. -/
theorem interpolated_container_lossless {v : Value} (container : WholeContainer v) :
    (∀ text, Inserts v text ↔ ¬ HoldsLongNumber v ∧ text = Json.encode v) ∧
    (∀ c ∈ (Json.encode v).toList, 0x20 ≤ c.toNat ∧ c.toNat ≤ 0x7E) ∧
    Json.decode (Json.encode v) = some v ∧
    ∀ other, WholeContainer other → Json.encode other = Json.encode v → other = v := by
  have decoded := Json.decode_encode container.json container.whole
  refine ⟨?_, ?_, decoded, ?_⟩
  · intro text
    exact inserts_iff.trans (written_container_iff container.container)
  · intro c member
    rw [Json.encode, String.toList_ofList] at member
    have plain := Json.value_text_plain container.json container.whole c member
    simpa only [Json.isPlain, Bool.and_eq_true, decide_eq_true_eq] using plain
  · intro other also_container same
    have also_decoded := Json.decode_encode also_container.json also_container.whole
    rw [same] at also_decoded
    exact Option.some.inj (also_decoded.symm.trans decoded)

/-- Everything that needs an escape, in a key or in a string, beside a negative number. -/
def escapesNested : Value :=
  .object (named [("\u0001\"😀", .array [.int (-120), .string "\\\n", .array [], .null])])

theorem interpolated_container_lossless_of_escapes :
    WholeContainer escapesNested ∧
    Inserts escapesNested "\x7b\"\\u0001\\\"\\ud83d\\ude00\": [-120, \"\\\\\\n\", [], null]\x7d" ∧
    Json.decode "\x7b\"\\u0001\\\"\\ud83d\\ude00\": [-120, \"\\\\\\n\", [], null]\x7d" =
      some escapesNested := by
  have json : IsJson escapesNested := by
    apply IsJson.object (by simp)
    intro member listed
    rw [List.mem_singleton] at listed
    subst listed
    apply IsJson.array
    intro item listed
    simp only [List.mem_cons, List.not_mem_nil, or_false] at listed
    rcases listed with rfl | rfl | rfl | rfl
    · exact .scalar _
    · exact .scalar _
    · exact .array (by simp)
    · exact .scalar _
  have whole : ∀ x, ¬ escapesNested.Contains (.float x) := by
    intro x inside
    cases inside with
    | member listed below =>
      rw [named, List.map_singleton, List.mem_singleton] at listed
      subst listed
      cases below with
      | item listed below =>
        simp only [List.mem_cons, List.not_mem_nil, or_false] at listed
        rcases listed with rfl | rfl | rfl | rfl
        · cases below
        · cases below
        · cases below with
          | item listed below => contradiction
        · cases below
  have container : WholeContainer escapesNested := ⟨.inr rfl, json, whole⟩
  have short : ¬ HoldsLongNumber escapesNested := by
    rw [← holds_long_iff]
    decide
  have spelled : Json.encode escapesNested =
      "\x7b\"\\u0001\\\"\\ud83d\\ude00\": [-120, \"\\\\\\n\", [], null]\x7d" := by cbv
  obtain ⟨inserts, _, decoded, _⟩ := interpolated_container_lossless container
  rw [← spelled]
  exact ⟨container, (inserts _).mpr ⟨short, rfl⟩, decoded⟩

end Stencil.Template
