import Stencil.Proofs.Template.Escape
import Stencil.Proofs.Template.Interpreter
import Stencil.Proofs.Template.Mirror
import Stencil.Proofs.Template.Placement

/-!
The order of members in a template. Templates that differ in nothing else compile alike and render
alike, up to the order of members in the objects that they build; arrays, the results of sections
and what comes from a document keep their order.
-/
namespace Stencil.Template

variable {π : Type} {language : PathLanguage π}

/-- The same value but for the order of members, in any of its objects. -/
inductive Reordered : Value → Value → Prop where
  | scalar (s : Scalar) : Reordered (.scalar s) (.scalar s)
  | array {items others : List Value} (each : List.Forall₂ Reordered items others) :
      Reordered (.array items) (.array others)
  | object {members moved others : List (Scalar × Value)}
      (keys : List.Forall₂ (fun member other => member.1 = other.1) members moved)
      (values : List.Forall₂ (fun member other => Reordered member.2 other.2) members moved)
      (order : moved.Perm others) : Reordered (.object members) (.object others)

inductive NamesApart : Value → Prop where
  | scalar (s : Scalar) : NamesApart (.scalar s)
  | array {items : List Value} (each : ∀ item ∈ items, NamesApart item) : NamesApart (.array items)
  | object {members : List (Scalar × Value)}
      (apart : members.Pairwise fun one two =>
        ∀ name, SpellsName one.1 name → ¬ SpellsName two.1 name)
      (each : ∀ member ∈ members, NamesApart member.2) : NamesApart (.object members)

mutual

/-- Two values that the template renders to differ in nothing but the order of members, and in that
only in the objects that the template builds itself. -/
def SameButOrder : Template π → Value → Value → Prop
  | .sectionOf _ body, v, w =>
    ∃ vs ws, v = .array vs ∧ w = .array ws ∧ List.Forall₂ (SameButOrder body) vs ws
  | .object nodes, v, w =>
    ∃ vs moved ws, v = .object (named vs) ∧ w = .object (named ws) ∧
      SameMembers nodes vs moved ∧ moved.Perm ws
  | .array nodes, v, w => ∃ vs ws, v = .array vs ∧ w = .array ws ∧ SameItems nodes vs ws
  | _, v, w => v = w

def SameMembers :
    List (String × Template π) → List (String × Value) → List (String × Value) → Prop
  | [], vs, ws => vs = [] ∧ ws = []
  | (name, node) :: nodes, vs, ws =>
    ∃ v w others more, vs = (name, v) :: others ∧ ws = (name, w) :: more ∧
      SameButOrder node v w ∧ SameMembers nodes others more

def SameItems : List (Template π) → List Value → List Value → Prop
  | [], vs, ws => vs = [] ∧ ws = []
  | node :: nodes, vs, ws =>
    ∃ v w others more, vs = v :: others ∧ ws = w :: more ∧
      SameButOrder node v w ∧ SameItems nodes others more

end

/-- The same template but for the order of members, where the names of each object are distinct. -/
inductive Rearranged : Template π → Template π → Prop where
  | literal (s : Scalar) : Rearranged (.literal s) (.literal s)
  | interpolation (tokens : List (Marker.Token π)) :
      Rearranged (.interpolation tokens) (.interpolation tokens)
  | raw (path : π) : Rearranged (.raw path) (.raw path)
  | unquote (path : π) : Rearranged (.unquote path) (.unquote path)
  | sectionOf {path : π} {body other : Template π} (inner : Rearranged body other) :
      Rearranged (.sectionOf path body) (.sectionOf path other)
  | array {nodes others : List (Template π)} (each : List.Forall₂ Rearranged nodes others) :
      Rearranged (.array nodes) (.array others)
  | object {nodes moved others : List (String × Template π)}
      (distinct : (nodes.map Prod.fst).Nodup)
      (names : List.Forall₂ (fun node other => node.1 = other.1) nodes moved)
      (each : List.Forall₂ (fun node other => Rearranged node.2 other.2) nodes moved)
      (order : moved.Perm others) : Rearranged (.object nodes) (.object others)

section Compiling

theorem names_distinct {members : List (Scalar × Value)} {nodes : List (String × Template π)}
    (names : List.Forall₂ (fun member node => SpellsName member.1 node.1) members nodes)
    (apart : members.Pairwise fun one two =>
      ∀ name, SpellsName one.1 name → ¬ SpellsName two.1 name) :
    (nodes.map Prod.fst).Nodup := by
  induction names with
  | nil => exact List.nodup_nil
  | @cons member node members nodes spells more ih =>
    obtain ⟨first, others⟩ := List.pairwise_cons.mp apart
    rw [List.map_cons, List.nodup_cons]
    refine ⟨fun listed => ?_, ih others⟩
    obtain ⟨twin, there, same⟩ := List.mem_map.mp listed
    obtain ⟨other, listed, spelled⟩ := related_of_mem more there
    exact first other listed node.1 spells (same ▸ spelled)

def CompileAlike (language : PathLanguage π) (member other : Scalar × Value) : Prop :=
  member.1 = other.1 ∧ Agree Rearranged (ofValue language member.2) (ofValue language other.2)

theorem member_agrees {member other : Scalar × Value} (alike : CompileAlike language member other) :
    Agree (fun node node' : String × Template π => node.1 = node'.1 ∧ Rearranged node.2 node'.2)
      (memberOf language member) (memberOf language other) := by
  obtain ⟨same, inner⟩ := alike
  rw [memberOf, memberOf, same]
  refine inner.bind fun node node' rearranged => (agree_self _).bind ?_
  rintro read _ rfl
  cases read with
  | name text => exact .succeed ⟨rfl, rearranged⟩
  | sectionOf path => exact .fail _ _

theorem compiled_members_agree {members moved others : List (Scalar × Value)}
    (apart : members.Pairwise fun one two =>
      ∀ name, SpellsName one.1 name → ¬ SpellsName two.1 name)
    (pairs : List.Forall₂ (CompileAlike language) members moved) (order : moved.Perm others) :
    Agree (fun nodes others => Rearranged (.object nodes) (.object others))
      (ofMembers language members) (ofMembers language others) := by
  have each := (agree_mapM (pairs.imp fun _ _ => member_agrees)).comp (agree_mapM_perm order)
  rw [← of_members_mapM, ← of_members_mapM] at each
  refine each.mono fun nodes others compiled _ ⟨moved, related, order⟩ => ?_
  have names := (compiled_members_mirror language members compiled).1
  exact .object (names_distinct names apart) (related.imp fun _ _ => And.left)
    (related.imp fun _ _ => And.right) order

theorem compiled_object_agrees {members moved others : List (Scalar × Value)}
    (apart : members.Pairwise fun one two =>
      ∀ name, SpellsName one.1 name → ¬ SpellsName two.1 name)
    (pairs : List.Forall₂ (CompileAlike language) members moved) (order : moved.Perm others) :
    Agree Rearranged (ofValue language (.object members)) (ofValue language (.object others)) := by
  by_cases single : members.length = 1
  · obtain ⟨⟨key, value⟩, rfl⟩ := List.length_eq_one_iff.mp single
    obtain ⟨⟨_, other⟩, _, ⟨rfl, inner⟩, none, rfl⟩ := List.forall₂_cons_left_iff.mp pairs
    cases none
    obtain rfl := List.singleton_perm.mp order
    rw [ofValue, ofValue]
    refine inner.bind fun body body' rearranged => (agree_self _).bind ?_
    rintro read _ rfl
    cases read with
    | sectionOf path => exact .succeed (.sectionOf rearranged)
    | name text =>
      have names : List.Forall₂ (fun node other : String × Template π => node.1 = other.1)
          [(text, body)] [(text, body')] := .cons rfl .nil
      exact .succeed (.object (by simp) names (.cons rearranged .nil) (.refl _))
  · have several : others.length ≠ 1 := by
      rwa [← order.length_eq, ← pairs.length_eq]
    rw [of_object_several language single, of_object_several language several]
    exact (compiled_members_agree apart pairs order).bind fun _ _ rearranged => .succeed rearranged

theorem scalar_rearranged {s : Scalar} {node : Template π}
    (compiled : ofValue language (.scalar s) = .ok node) : Rearranged node node := by
  cases compiled_mirrors language (.scalar s) compiled with
  | scalar plain => exact .literal s
  | literal means => exact .literal _
  | interpolation means each => exact .interpolation _
  | raw means done => exact .raw _
  | unquote means done => exact .unquote _

mutual

theorem compile_reordered : (template : Value) → {other : Value} → Reordered template other →
    NamesApart template → Agree Rearranged (ofValue language template) (ofValue language other)
  | .scalar s, _, .scalar _, _ => agree_refl fun _ => scalar_rearranged
  | .array items, _, .array each, .array apart => by
    rw [ofValue, ofValue, of_items_mapM, of_items_mapM]
    refine (agree_mapM (compile_items_reordered items each apart)).bind fun nodes others pairs => ?_
    exact .succeed (.array pairs)
  | .object members, _, .object keys values order, .object apart each =>
    compiled_object_agrees apart (compile_members_reordered members keys values each) order

theorem compile_items_reordered : (items : List Value) → {others : List Value} →
    List.Forall₂ Reordered items others → (∀ item ∈ items, NamesApart item) →
    List.Forall₂ (fun item other =>
      Agree Rearranged (ofValue language item) (ofValue language other)) items others
  | [], _, .nil, _ => .nil
  | item :: items, _, .cons first more, apart =>
    .cons (compile_reordered item first (apart item (List.mem_cons_self ..)))
      (compile_items_reordered items more fun other later =>
        apart other (List.mem_cons_of_mem _ later))

theorem compile_members_reordered : (members : List (Scalar × Value)) →
    {moved : List (Scalar × Value)} →
    List.Forall₂ (fun member other => member.1 = other.1) members moved →
    List.Forall₂ (fun member other => Reordered member.2 other.2) members moved →
    (∀ member ∈ members, NamesApart member.2) →
    List.Forall₂ (CompileAlike language) members moved
  | [], _, _, .nil, _ => .nil
  | (key, value) :: members, _, .cons same keys, .cons first more, apart =>
    .cons ⟨same, compile_reordered value first (apart (key, value) (List.mem_cons_self ..))⟩
      (compile_members_reordered members keys more fun other later =>
        apart other (List.mem_cons_of_mem _ later))

end

end Compiling

section Rendering

variable (language : PathLanguage π) (root current : Value)

def renderMember (member : String × Template π) : Except (RenderFault π) (String × Value) :=
  return (member.1, ← render language root current member.2)

theorem render_members_mapM (members : List (String × Template π)) :
    renderMembers language root current members =
      members.mapM (renderMember language root current) := by
  induction members with
  | nil => rfl
  | cons member members ih =>
    rw [renderMembers, List.mapM_cons, ih, renderMember, bind_assoc]
    rfl

theorem render_items_mapM (items : List (Template π)) :
    renderItems language root current items = items.mapM (render language root current) := by
  induction items with
  | nil => rfl
  | cons item items ih => rw [renderItems, List.mapM_cons, ih]

variable {language root current}

theorem same_members_names {nodes : List (String × Template π)} {vs ws : List (String × Value)}
    (same : SameMembers nodes vs ws) :
    vs.map Prod.fst = nodes.map Prod.fst ∧ ws.map Prod.fst = nodes.map Prod.fst := by
  induction nodes generalizing vs ws with
  | nil =>
    obtain ⟨rfl, rfl⟩ := same
    simp
  | cons node nodes ih =>
    obtain ⟨v, w, others, more, rfl, rfl, _, rest⟩ := same
    obtain ⟨left, right⟩ := ih rest
    simp [left, right]

def RenderAlike (language : PathLanguage π) (root current : Value)
    (node other : String × Template π) : Prop :=
  node.1 = other.1 ∧ Agree (SameButOrder node.2) (render language root current node.2)
    (render language root current other.2)

theorem members_agree {nodes moved : List (String × Template π)}
    (pairs : List.Forall₂ (RenderAlike language root current) nodes moved) :
    Agree (SameMembers nodes) (renderMembers language root current nodes)
      (renderMembers language root current moved) := by
  induction pairs with
  | nil => exact .succeed ⟨rfl, rfl⟩
  | @cons node other nodes moved first more ih =>
    obtain ⟨name, node⟩ := node
    obtain ⟨_, other⟩ := other
    obtain ⟨rfl, inner⟩ := first
    rw [renderMembers, renderMembers]
    refine inner.bind fun v w same => ih.bind fun others ws rest => ?_
    exact .succeed ⟨v, w, others, ws, rfl, rfl, same, rest⟩

theorem rendered_object_agrees {nodes moved others : List (String × Template π)}
    (distinct : (nodes.map Prod.fst).Nodup)
    (pairs : List.Forall₂ (RenderAlike language root current) nodes moved)
    (order : moved.Perm others) :
    Agree (SameButOrder (.object nodes)) (render language root current (.object nodes))
      (render language root current (.object others)) := by
  have reordered : Agree List.Perm (renderMembers language root current moved)
      (renderMembers language root current others) := by
    rw [render_members_mapM, render_members_mapM]
    exact agree_mapM_perm order
  rw [render, render]
  refine ((members_agree pairs).comp reordered).bind fun vs ws ⟨moved, same, order⟩ => .succeed ?_
  obtain ⟨left, right⟩ := same_members_names same
  have apart : (ws.map Prod.fst).Nodup :=
    ((order.map Prod.fst).nodup_iff).mp (right ▸ distinct)
  exact ⟨vs, moved, ws, object_of_distinct (left ▸ distinct), object_of_distinct apart, same, order⟩

theorem items_agree {nodes others : List (Template π)}
    (pairs : List.Forall₂ (fun node other => Agree (SameButOrder node)
      (render language root current node) (render language root current other)) nodes others) :
    Agree (SameItems nodes) (renderItems language root current nodes)
      (renderItems language root current others) := by
  induction pairs with
  | nil => exact .succeed ⟨rfl, rfl⟩
  | cons first more ih =>
    rw [renderItems, renderItems]
    refine first.bind fun v w same => ih.bind fun vs ws rest => ?_
    exact .succeed ⟨v, w, vs, ws, rfl, rfl, same, rest⟩

theorem section_agrees {path : π} {body other : Template π}
    (inner : ∀ current, Agree (SameButOrder body) (render language root current body)
      (render language root current other)) :
    Agree (SameButOrder (.sectionOf path body))
      (render language root current (.sectionOf path body))
      (render language root current (.sectionOf path other)) := by
  rw [render, render]
  refine (agree_self _).bind ?_
  rintro found _ rfl
  refine (agree_self _).bind ?_
  rintro documents _ rfl
  refine Agree.bind (agree_mapM (List.forall₂_same.mpr fun document _ => inner document)) ?_
  exact fun vs ws each => .succeed ⟨vs, ws, rfl, rfl, each⟩

mutual

theorem render_rearranged : (template : Template π) → {other : Template π} →
    Rearranged template other → (current : Value) →
    Agree (SameButOrder template) (render language root current template)
      (render language root current other)
  | .literal s, _, .literal _, _ => agree_refl fun _ _ => rfl
  | .interpolation tokens, _, .interpolation _, _ => agree_refl fun _ _ => rfl
  | .raw path, _, .raw _, _ => agree_refl fun _ _ => rfl
  | .unquote path, _, .unquote _, _ => agree_refl fun _ _ => rfl
  | .sectionOf path body, _, .sectionOf inner, _ => section_agrees (render_rearranged body inner)
  | .object nodes, _, .object distinct names each order, current =>
    rendered_object_agrees distinct (render_members_rearranged nodes names each current) order
  | .array nodes, _, .array each, current => by
    rw [render, render]
    refine (items_agree (render_items_rearranged nodes each current)).bind fun vs ws same => ?_
    exact .succeed ⟨vs, ws, rfl, rfl, same⟩

theorem render_members_rearranged : (nodes : List (String × Template π)) →
    {moved : List (String × Template π)} →
    List.Forall₂ (fun node other => node.1 = other.1) nodes moved →
    List.Forall₂ (fun node other => Rearranged node.2 other.2) nodes moved → (current : Value) →
    List.Forall₂ (RenderAlike language root current) nodes moved
  | [], _, _, .nil, _ => .nil
  | (_, node) :: nodes, _, .cons same names, .cons first more, current =>
    .cons ⟨same, render_rearranged node first current⟩
      (render_members_rearranged nodes names more current)

theorem render_items_rearranged : (nodes : List (Template π)) → {others : List (Template π)} →
    List.Forall₂ Rearranged nodes others → (current : Value) →
    List.Forall₂ (fun node other => Agree (SameButOrder node)
      (render language root current node) (render language root current other)) nodes others
  | [], _, .nil, _ => .nil
  | node :: nodes, _, .cons first more, current =>
    .cons (render_rearranged node first current) (render_items_rearranged nodes more current)

end

end Rendering

/-- Templates that differ in the order of members only compile both or neither, and render both or
neither, to values that differ in the order of members only. -/
theorem order_of_members_irrelevant (language : PathLanguage π) {template other : Value}
    (reordered : Reordered template other) (apart : NamesApart template) :
    (Compilable language template ↔ Compilable language other) ∧
    ∀ first second, ofValue language template = .ok first → ofValue language other = .ok second →
      ∀ document,
        ((∃ fault, first.renderDocument language document = .error fault) ↔
          ∃ fault, second.renderDocument language document = .error fault) ∧
        ∀ v w, first.renderDocument language document = .ok v →
          second.renderDocument language document = .ok w → SameButOrder first v w := by
  have compiled : Agree Rearranged (ofValue language template) (ofValue language other) :=
    compile_reordered template reordered apart
  refine ⟨compiled.ok_iff, fun first second one two document => ?_⟩
  rw [one, two] at compiled
  have rendered : Agree (SameButOrder first) (first.renderDocument language document)
      (second.renderDocument language document) :=
    render_rearranged first compiled.related document
  refine ⟨rendered.error_iff, fun v w left right => ?_⟩
  rw [left, right] at rendered
  exact rendered.related

def textFirst : Value :=
  .object [(.string "a", .null), (.string "b", .object [(.string "\x7b\x7b#xs\x7d\x7d",
    .object [(.string "p", .string "\x7b\x7bn\x7d\x7d"), (.string "q", .bool true)])])]

def textLast : Value :=
  .object [(.string "b", .object [(.string "\x7b\x7b#xs\x7d\x7d",
    .object [(.string "q", .bool true), (.string "p", .string "\x7b\x7bn\x7d\x7d")])]),
    (.string "a", .null)]

theorem reordered_swap {key other : Scalar} {v v' w w' : Value} (one : Reordered v v')
    (two : Reordered w w') :
    Reordered (.object [(key, v), (other, w)]) (.object [(other, w'), (key, v')]) := by
  refine .object ?_ ?_ (.swap ..)
  · exact .cons rfl (.cons rfl .nil)
  · exact .cons one (.cons two .nil)

theorem text_first_reordered : Reordered textFirst textLast := by
  refine reordered_swap (.scalar _) (.object ?_ ?_ (.refl _))
  · exact .cons rfl .nil
  · exact .cons (reordered_swap (.scalar _) (.scalar _)) .nil

theorem spell_apart {one two : Scalar} (differ : keyOf memberNames one ≠ keyOf memberNames two)
    (name : String) (spells : SpellsName one name) : ¬ SpellsName two name := by
  intro other
  have left := (key_of_name_iff_spells memberNames).mpr spells
  have right := (key_of_name_iff_spells memberNames).mpr other
  exact differ (left.trans right.symm)

theorem text_first_apart : NamesApart textFirst := by
  have outer : keyOf memberNames (.string "a") ≠ keyOf memberNames (.string "b") := by
    have a : keyOf memberNames (.string "a") = .ok (.name "a") := by cbv
    have b : keyOf memberNames (.string "b") = .ok (.name "b") := by cbv
    simp [a, b]
  have inner : keyOf memberNames (.string "p") ≠ keyOf memberNames (.string "q") := by
    have p : keyOf memberNames (.string "p") = .ok (.name "p") := by cbv
    have q : keyOf memberNames (.string "q") = .ok (.name "q") := by cbv
    simp [p, q]
  have body : NamesApart
      (.object [(.string "p", .string "\x7b\x7bn\x7d\x7d"), (.string "q", .bool true)]) := by
    refine .object (by simpa using spell_apart inner) ?_
    simpa using ⟨.scalar _, .scalar _⟩
  refine .object (by simpa using spell_apart outer) ?_
  simpa using ⟨.scalar _, .object (by simp) (by simpa using body)⟩

def compiledFirst : Template String :=
  .object [("a", .literal .null), ("b", .sectionOf "xs"
    (.object [("p", .interpolation [.path "n"]), ("q", .literal (.bool true))]))]

def compiledLast : Template String :=
  .object [("b", .sectionOf "xs"
    (.object [("q", .literal (.bool true)), ("p", .interpolation [.path "n"])])),
    ("a", .literal .null)]

theorem order_of_members_irrelevant_of_section :
    Reordered textFirst textLast ∧ NamesApart textFirst ∧
    ofValue memberNames textFirst = .ok compiledFirst ∧
    ofValue memberNames textLast = .ok compiledLast ∧
    SameButOrder compiledFirst
      (.object [(.string "a", .null), (.string "b",
        .array [.object [(.string "p", .string "1"), (.string "q", .bool true)]])])
      (.object [(.string "b",
        .array [.object [(.string "q", .bool true), (.string "p", .string "1")]]),
        (.string "a", .null)]) := by
  have one : ofValue memberNames textFirst = .ok compiledFirst := by cbv
  have two : ofValue memberNames textLast = .ok compiledLast := by cbv
  obtain ⟨_, renders⟩ :=
    order_of_members_irrelevant memberNames text_first_reordered text_first_apart
  obtain ⟨_, values⟩ := renders _ _ one two
    (.object [(.string "xs", .array [.object [(.string "n", .int 1)]])])
  exact ⟨text_first_reordered, text_first_apart, one, two, values _ _ rfl rfl⟩

end Stencil.Template
