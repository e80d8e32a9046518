import EntityGraph.Proofs.Completeness

/-!
What a change of one node of a selection can change in the compiled plan. Each level is compiled
from its own nodes and arguments, so other arguments and children of a node are seen in the plan
under the relations that lead to the node and nowhere else, whichever of its siblings lead there
too.
-/

namespace EntityGraph

namespace Dict

universe u
variable {α : Type u} {name : String} {related : α → α → Prop} {d d' : Dict α}

/-- Related dictionaries are related still when related values are written under one key. -/
theorem forall₂_insert {R : String → α → α → Prop}
    (h : List.Forall₂ (fun a b => a.1 = b.1 ∧ R a.1 a.2 b.2) d d') {key : String} {v w : α}
    (new : R key v w) :
    List.Forall₂ (fun a b => a.1 = b.1 ∧ R a.1 a.2 b.2) (insert d key v) (insert d' key w) := by
  induction h with
  | nil => exact .cons ⟨rfl, new⟩ .nil
  | @cons a b rest rest' first below ih =>
      obtain ⟨own, value⟩ := a
      obtain ⟨own', value'⟩ := b
      obtain rfl : own = own' := first.1
      by_cases here : own = key
      · simp only [Dict.insert, if_pos here]
        exact .cons ⟨rfl, here ▸ new⟩ below
      · simp only [Dict.insert, if_neg here]
        exact .cons first ih

/-- The keys are the same in the same order, and so are the values, but for those under `name`,
which are related. -/
def EqualBut (name : String) (related : α → α → Prop) : Dict α → Dict α → Prop :=
  List.Forall₂ fun a b => a.1 = b.1 ∧ if a.1 = name then related a.2 b.2 else a.2 = b.2

theorem EqualBut.refl (same : ∀ v, related v v) (d : Dict α) : EqualBut name related d d := by
  refine List.forall₂_same.mpr fun entry _ => ⟨rfl, ?_⟩
  split
  · exact same entry.2
  · rfl

theorem EqualBut.keys (h : EqualBut name related d d') : keys d = keys d' := by
  induction h with
  | nil => rfl
  | cons first _ ih => exact congrArg₂ List.cons first.1 ih

theorem EqualBut.eq_of_eq (h : EqualBut name (· = ·) d d') : d = d' := by
  induction h with
  | nil => rfl
  | cons first _ ih => exact congrArg₂ List.cons (Prod.ext first.1 (by simpa using first.2)) ih

theorem EqualBut.insert (h : EqualBut name related d d') {key : String} {v w : α}
    (new : if key = name then related v w else v = w) :
    EqualBut name related (insert d key v) (insert d' key w) :=
  forall₂_insert (R := fun key a b => if key = name then related a b else a = b) h new

theorem EqualBut.get?_of_ne (h : EqualBut name related d d') {key : String} (other : key ≠ name) :
    get? d key = get? d' key := by
  induction h with
  | nil => rfl
  | @cons a b _ _ first _ ih =>
      obtain ⟨own, value⟩ := a
      obtain ⟨own', value'⟩ := b
      obtain rfl : own = own' := first.1
      by_cases here : own = key
      · have same : value = value' := by simpa [here, other] using first.2
        simp [get?, here, same]
      · simpa [get?, here] using ih

theorem EqualBut.get?_cases (h : EqualBut name related d d') :
    get? d name = none ∧ get? d' name = none ∨
      ∃ v w, get? d name = some v ∧ get? d' name = some w ∧ related v w := by
  induction h with
  | nil => exact .inl ⟨rfl, rfl⟩
  | @cons a b _ _ first _ ih =>
      obtain ⟨own, value⟩ := a
      obtain ⟨own', value'⟩ := b
      obtain rfl : own = own' := first.1
      by_cases here : own = name
      · exact .inr ⟨value, value', by simp [get?, here], by simp [get?, here],
          by simpa [here] using first.2⟩
      · simpa [get?, here] using ih

end Dict

namespace FetchPlan

/-- What the plan says of its own level: the name it is shown under, its modifiers, and the
relations that it expands in their order. -/
def ownLevel (p : FetchPlan) : Option String × List Modifier × List String :=
  (p.shownAs, p.modifiers, Dict.keys p.relations)

/-- The plans are the same outside the one at the end of the path, which is shown under the same
name. -/
def EqualOutside : List String → FetchPlan → FetchPlan → Prop
  | [], p, q => p.shownAs = q.shownAs
  | name :: path, p, q =>
      p.shownAs = q.shownAs ∧ p.modifiers = q.modifiers ∧
        Dict.EqualBut name (EqualOutside path) p.relations q.relations

theorem EqualOutside.refl (path : List String) (p : FetchPlan) : p.EqualOutside path p := by
  induction path generalizing p with
  | nil => rfl
  | cons name path ih => exact ⟨rfl, rfl, .refl ih p.relations⟩

/-- Levels that are not at the end of the path, nor below it, are the same. -/
theorem EqualOutside.ownLevel_at? {path : List String} {p q : FetchPlan}
    (h : p.EqualOutside path q) {other : List String} (outside : ¬ path <+: other) :
    (p.at? other).map ownLevel = (q.at? other).map ownLevel := by
  induction path generalizing p q other with
  | nil => exact absurd List.nil_prefix outside
  | cons name path ih =>
      obtain ⟨shown, modifiers, relations⟩ := h
      cases other with
      | nil => simp [at?, ownLevel, shown, modifiers, relations.keys]
      | cons first rest =>
          by_cases here : first = name
          · subst here
            have below : ¬ path <+: rest := fun inside =>
              outside (List.cons_prefix_cons.mpr ⟨rfl, inside⟩)
            obtain ⟨absent, absent'⟩ | ⟨v, w, found, found', equal⟩ := relations.get?_cases
            · simp [at?, absent, absent']
            · simpa [at?, found, found'] using ih equal below
          · simp [at?, relations.get?_of_ne here]

/-- The plans are the same outside the one at the end of the path, or altogether if there is no
path. -/
def EqualAlong (path? : Option (List String)) (p q : FetchPlan) : Prop :=
  match path? with
  | some path => p.EqualOutside path q
  | none => p = q

theorem EqualAlong.refl (path? : Option (List String)) (p : FetchPlan) :
    p.EqualAlong path? p := by
  cases path? with
  | none => rfl
  | some path => exact EqualOutside.refl path p

end FetchPlan

/-- The selections are the same but for the arguments and the children of one node, to which the
names of nodes lead. -/
inductive Selection.DifferAt : List String → Selection → Selection → Prop
  | here (before after : Selection) {name : String} {arguments arguments' : Row}
      {children children' : Selection} :
      DifferAt [name] (before ++ ⟨name, arguments, children⟩ :: after)
        (before ++ ⟨name, arguments', children'⟩ :: after)
  | inside (before after : Selection) {name : String} {names : List String} {arguments : Row}
      {children children' : Selection} :
      DifferAt names children children' →
      DifferAt (name :: names) (before ++ ⟨name, arguments, children⟩ :: after)
        (before ++ ⟨name, arguments, children'⟩ :: after)

/-- The relations that the names of nodes lead through, if each of them leads through one. -/
def Registry.relationPath? (r : Registry) : Entity → List String → Option (List String)
  | _, [] => some []
  | e, name :: names =>
      match e.resolve? name with
      | some (.relation relation rel) =>
          ((r.get? rel.target).bind (r.relationPath? · names)).map (relation :: ·)
      | _ => none

namespace Compiler

section Levels

variable (c : Compiler) (e : Entity) {l l' : Level} {name : String}
  {related : FetchPlan → FetchPlan → Prop}

/-- Both levels select the same columns and expand the same relations, by the same plans but for
one relation. -/
structure Level.EqualBut (name : String) (related : FetchPlan → FetchPlan → Prop) (l l' : Level) :
    Prop where
  selected : l.selected = l'.selected
  relations : Dict.EqualBut name related l.relations l'.relations

/-- Two nodes of one name do the same to a level unless they lead to the relation. -/
theorem addNode_equalBut (h : l.EqualBut name related l') {n m : FieldNode}
    (named : n.name = m.name)
    (nested : ∀ relation rel, e.resolve? n.name = some (.relation relation rel) →
      if relation = name then related (c.nested relation rel n) (c.nested relation rel m)
      else c.nested relation rel n = c.nested relation rel m) :
    (c.addNode (some e) l n).EqualBut name related (c.addNode (some e) l' m) := by
  rw [addNode_eq, addNode_eq, ← named]
  split
  · refine ⟨?_, ?_⟩
    · unfold Level.addColumn
      rw [h.selected]
      split <;> simp [h.selected]
    · simpa using h.relations
  · rename_i relation rel leads
    exact ⟨h.selected, h.relations.insert (nested relation rel leads)⟩
  · exact h

theorem addNodes_equalBut (same : ∀ p, related p p) (h : l.EqualBut name related l')
    (nodes : Selection) :
    (c.addNodes (some e) l nodes).EqualBut name related (c.addNodes (some e) l' nodes) := by
  induction nodes generalizing l l' with
  | nil => exact h
  | cons n rest ih =>
      refine ih (addNode_equalBut c e h rfl ?_)
      intro relation rel _
      split
      · exact same _
      · rfl

/-- Of siblings that differ in one node the plans differ in what is related for this node. -/
theorem addNodes_replaced (same : ∀ p, related p p) (before after : Selection) {n m : FieldNode}
    (named : n.name = m.name) (own : String)
    (nested : ∀ relation rel, e.resolve? n.name = some (.relation relation rel) →
      relation = own ∧ related (c.nested relation rel n) (c.nested relation rel m)) :
    (c.addNodes (some e) {} (before ++ n :: after)).EqualBut own related
      (c.addNodes (some e) {} (before ++ m :: after)) := by
  rw [addNodes_append, addNodes_append]
  refine addNodes_equalBut c e same (addNode_equalBut c e ⟨rfl, .refl same _⟩ named ?_) after
  intro relation rel leads
  obtain ⟨rfl, new⟩ := nested relation rel leads
  simpa using new

end Levels

variable {entities : List Entity} {r : Registry} {protocol : ArgumentProtocol} {e : Entity}

/-- What is different below a relation is below it in the plan too. -/
theorem equalAlong_assemble (c : Compiler) {l l' : Level} {relation : String}
    (path? : Option (List String))
    (h : l.EqualBut relation (FetchPlan.EqualAlong path?) l') (entity : Option Entity)
    (arguments : Row) (shownAs : Option String) :
    (c.assemble entity arguments shownAs l).EqualAlong (path?.map (relation :: ·))
      (c.assemble entity arguments shownAs l') := by
  obtain ⟨selected, relations⟩ := h
  cases path? with
  | none =>
      have same : l.relations = l'.relations := relations.eq_of_eq
      simp [FetchPlan.EqualAlong, assemble, selected, same]
  | some path => exact ⟨rfl, by simp [assemble, selected], relations⟩

/-- One level above nodes whose plans are the same along a path, or which lead to no plan. -/
theorem equalAlong_of_nested (accepted : Registry.ofList entities = .ok r) (has : r.Has e)
    (before after : Selection) {n m : FieldNode} (named : n.name = m.name) (names : List String)
    (nested : ∀ relation rel target, e.resolve? n.name = some (.relation relation rel) →
      r.get? rel.target = some target →
      ((⟨some r, protocol⟩ : Compiler).nested relation rel n).EqualAlong
        (r.relationPath? target names) ((⟨some r, protocol⟩ : Compiler).nested relation rel m))
    (arguments : Row) (shownAs : Option String) :
    ((⟨some r, protocol⟩ : Compiler).assemble (some e) arguments shownAs
      ((⟨some r, protocol⟩ : Compiler).addNodes (some e) {} (before ++ n :: after))).EqualAlong
      (r.relationPath? e (n.name :: names))
      ((⟨some r, protocol⟩ : Compiler).assemble (some e) arguments shownAs
        ((⟨some r, protocol⟩ : Compiler).addNodes (some e) {} (before ++ m :: after))) := by
  set c : Compiler := ⟨some r, protocol⟩
  by_cases leads : ∃ relation rel, e.resolve? n.name = some (.relation relation rel)
  · obtain ⟨relation, rel, leads⟩ := leads
    obtain ⟨target, registered⟩ :=
      Registry.exists_target accepted has (Entity.relation?_of_resolve? leads)
    have path : r.relationPath? e (n.name :: names) =
        (r.relationPath? target names).map (relation :: ·) := by
      simp [Registry.relationPath?, leads, registered]
    rw [path]
    refine equalAlong_assemble c _ (addNodes_replaced c e (.refl _) before after named _ ?_) _ _ _
    intro other own leads'
    obtain ⟨rfl, rfl⟩ : relation = other ∧ rel = own := by simpa [leads] using leads'
    exact ⟨rfl, nested relation rel target leads registered⟩
  · have path : r.relationPath? e (n.name :: names) = none := by
      rw [Registry.relationPath?]
      split
      · rename_i relation rel found
        exact absurd ⟨relation, rel, found⟩ leads
      · rfl
    have replaced := addNodes_replaced c e (fun _ => rfl) before after named n.name
      fun relation rel found => absurd ⟨relation, rel, found⟩ leads
    rw [path]
    exact equalAlong_assemble c none replaced (some e) arguments shownAs

/-- At every level, however it is shown and whatever its arguments are. -/
theorem equalAlong_of_differAt (accepted : Registry.ofList entities = .ok r)
    {names : List String} {s t : Selection} (differ : Selection.DifferAt names s t)
    (has : r.Has e) (arguments : Row) (shownAs : Option String) :
    ((⟨some r, protocol⟩ : Compiler).assemble (some e) arguments shownAs
      ((⟨some r, protocol⟩ : Compiler).addNodes (some e) {} s)).EqualAlong
      (r.relationPath? e names)
      ((⟨some r, protocol⟩ : Compiler).assemble (some e) arguments shownAs
        ((⟨some r, protocol⟩ : Compiler).addNodes (some e) {} t)) := by
  induction differ generalizing e arguments shownAs with
  | @here before after name own own' children children' =>
      exact equalAlong_of_nested accepted has before after (n := ⟨name, own, children⟩)
        (m := ⟨name, own', children'⟩) rfl [] (fun _ _ _ _ _ => rfl) arguments shownAs
  | @inside before after name names own children children' _ ih =>
      refine equalAlong_of_nested accepted has before after (n := ⟨name, own, children⟩)
        (m := ⟨name, own, children'⟩) rfl names ?_ arguments shownAs
      intro relation rel target _ registered
      have known : (⟨some r, protocol⟩ : Compiler).target rel.target = some target := registered
      rw [nested, nested, known]
      exact ih ⟨_, registered⟩ own _

/-- A node is seen in the plan of its relation only: with other arguments and children of one node
the plan is the same outside the plan to which the relations on the way to the node lead, and it
is the same altogether if a node on the way leads to no relation. With other arguments of the
request it is the same but for the modifiers after the selection of the first level. -/
theorem compile_isolated (accepted : Registry.ofList entities = .ok r) {name : String}
    (registered : r.get? name = some e) (protocol : ArgumentProtocol) {names : List String}
    {s t : Selection} (differ : Selection.DifferAt names s t) (arguments arguments' : Row) :
    let c : Compiler := ⟨some r, protocol⟩
    (∀ path, r.relationPath? e names = some path →
      (c.compile name s arguments).EqualOutside path (c.compile name t arguments) ∧
      ∀ other, ¬ path <+: other →
        ((c.compile name s arguments).at? other).map FetchPlan.ownLevel =
          ((c.compile name t arguments).at? other).map FetchPlan.ownLevel) ∧
    (r.relationPath? e names = none → c.compile name s arguments = c.compile name t arguments) ∧
    ∃ fields others others', (c.compile name s arguments).modifiers = .select fields :: others ∧
      c.compile name s arguments' =
        { c.compile name s arguments with modifiers := .select fields :: others' } := by
  intro c
  have known : c.target name = some e := registered
  have alike : (c.assemble (some e) arguments none (c.addNodes (some e) {} s)).EqualAlong
      (r.relationPath? e names) (c.assemble (some e) arguments none (c.addNodes (some e) {} t)) :=
    equalAlong_of_differAt accepted differ ⟨name, registered⟩ arguments none
  simp only [compile, known]
  refine ⟨?_, ?_, _, _, c.modifiersOf (some e) arguments', rfl, rfl⟩
  · intro path found
    rw [found] at alike
    exact ⟨alike, fun other outside => alike.ownLevel_at? outside⟩
  · intro nowhere
    rw [nowhere] at alike
    exact alike

end Compiler

namespace Catalog

/-- Folders lie in folders. -/
def folder : Entity where
  name := "Folder"
  table := none
  fields := [("id", .scalar ⟨"integer"⟩), ("name", .scalar ⟨"string"⟩),
    ("parentId", .scalar ⟨"integer"⟩), ("parent", .relation none),
    ("children", .relation (some "folders"))]
  relations := [("parent", ⟨.one, "Folder", ⟨"parentId", "id"⟩, true, none⟩),
    ("folders", ⟨.many, "Folder", ⟨"id", "parentId"⟩, true, none⟩)]
  api := {}

def folders : Registry := ⟨[("Folder", folder)]⟩

theorem folders_accepted : Registry.ofList [folder] = .ok folders := rfl

/-- Two nodes ask for the folders in a folder, the second with one for their parents. -/
def folderSelection (arguments : Row) (columns : List String) : Selection :=
  [⟨"children", [("limit", .ofInt 2)], [.leaf "id"]⟩, .leaf "name",
    ⟨"children", [("nameLike", .string "a")],
      [.leaf "id", ⟨"parent", arguments, columns.map .leaf⟩]⟩]

def folderPlan (arguments : Row) (columns : List String) : FetchPlan :=
  (⟨some folders, .standard⟩ : Compiler).compile "Folder" (folderSelection arguments columns) []

/-- Another limit and another column of the parents change nothing around them. -/
theorem isolated_folderPlan :
    Registry.ofList [folder] = .ok folders ∧ folders.get? "Folder" = some folder ∧
    Selection.DifferAt ["children", "parent"] (folderSelection [] ["id"])
      (folderSelection [("limit", .ofInt 1)] ["name"]) ∧
    folders.relationPath? folder ["children", "parent"] = some ["folders", "parent"] ∧
    (folderPlan [] ["id"]).EqualOutside ["folders", "parent"]
      (folderPlan [("limit", .ofInt 1)] ["name"]) ∧
    ((folderPlan [] ["id"]).at? ["folders", "parent"]).bind (·.selected?) = some ["id"] ∧
    ((folderPlan [("limit", .ofInt 1)] ["name"]).at? ["folders", "parent"]).bind (·.selected?) =
      some ["name"] := by
  have differ : Selection.DifferAt ["children", "parent"] (folderSelection [] ["id"])
      (folderSelection [("limit", .ofInt 1)] ["name"]) :=
    .inside [⟨"children", [("limit", .ofInt 2)], [.leaf "id"]⟩, .leaf "name"] []
      (.here [.leaf "id"] [])
  have registered : folders.get? "Folder" = some folder := rfl
  have isolated := (Compiler.compile_isolated folders_accepted registered .standard differ [] []).1
  exact ⟨folders_accepted, registered, differ, rfl, (isolated _ rfl).1, rfl, rfl⟩

end Catalog
end EntityGraph
