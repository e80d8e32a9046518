import EntityGraph.Proofs.NestedRead

/-!
What a relation through a middle attaches to an owner: of the stored rows that are linked to it,
the first of each join key. Links that are repeated do not repeat a row, and rows are lost exactly
where several linked rows have one join key. The order in which a level is sorted does not matter
for this, so nothing is asked of the values that it is sorted by.
-/

namespace EntityGraph

section FirstPerKey

variable {column : String} {rows : List Row}

private theorem joins_comm (a b : Json) : a.joins b = b.joins a := by
  rw [Bool.eq_iff_iff, Json.joins_iff, Json.joins_iff]
  exact exists_congr fun key => and_comm

/-- No two of the rows have the same join key. -/
def Apart (column : String) (rows : List Row) : Prop :=
  rows.Pairwise fun a b => (Json.field a column).joins (Json.field b column) = false

theorem Apart.perm {rows' : List Row} (same : rows.Perm rows') :
    Apart column rows ↔ Apart column rows' :=
  same.pairwise_iff fun h => (joins_comm _ _).trans h

end FirstPerKey

namespace FetchPlan

end FetchPlan

namespace MemoryStore

variable {r : Registry} {s : MemoryStore} {e : Entity} {plan : FetchPlan}

section Level

variable {entities : List Entity}

/-- Rows with texts in their join columns join only where these are equal. -/
theorem joinsEqual_of_texts
    (texts : ∀ v, s.JoinValue r v → v = .null ∨ ∃ text, v = .string text) : s.JoinsEqual r := by
  refine joinsEqual_of_proper fun v hv => ?_
  obtain rfl | ⟨text, rfl⟩ := texts v hv <;> trivial

section Through

variable {name via : String} {child : FetchPlan} {rel link : Relation} {target middle : Entity}
  {owners : List Row} {before after : Row → Row}

end Through

end Level

end MemoryStore

namespace Catalog
open MemoryStore

def tag : Entity where
  name := "Tag"
  table := none
  fields := [("id", .scalar ⟨"integer"⟩), ("code", .scalar ⟨"string"⟩),
    ("label", .scalar ⟨"string"⟩)]
  relations := []
  api := {}

def postTag : Entity where
  name := "PostTag"
  table := none
  fields := [("id", .scalar ⟨"integer"⟩), ("post", .scalar ⟨"string"⟩),
    ("tag", .scalar ⟨"string"⟩)]
  relations := []
  api := {}

def toPostTags : Relation := ⟨.many, "PostTag", ⟨"slug", "post"⟩, false, none⟩

def toTags : Relation := ⟨.manyThrough "postTags", "Tag", ⟨"tag", "code"⟩, true, none⟩

def post : Entity where
  name := "Post"
  table := none
  fields := [("id", .scalar ⟨"integer"⟩), ("slug", .scalar ⟨"string"⟩), ("tags", .relation none)]
  relations := [("postTags", toPostTags), ("tags", toTags)]
  api := {}

/-- Posts with tags, which are joined by their codes. -/
def posts : Registry := ⟨[("Tag", tag), ("PostTag", postTag), ("Post", post)]⟩

theorem posts_accepted : Registry.ofList [tag, postTag, post] = .ok posts := rfl

def tagRow (id : Nat) (code label : String) : Row :=
  [("id", .ofNat id), ("code", .string code), ("label", .string label)]

def linkRow (id : Nat) (post tag : String) : Row :=
  [("id", .ofNat id), ("post", .string post), ("tag", .string tag)]

def postRow (id : Nat) (slug : String) : Row := [("id", .ofNat id), ("slug", .string slug)]

def labelPlan : FetchPlan := ⟨none, [], [.select ["label"]]⟩

def postPlan : FetchPlan := ⟨none, [("tags", labelPlan)], [.select ["slug"]]⟩

theorem posts_relation {e : Entity} (h : posts.Has e) {name : String} {rel : Relation}
    (hrel : e.relation? name = some rel) : e = post ∧ (rel = toPostTags ∨ rel = toTags) := by
  obtain ⟨key, found⟩ := h
  have registered := Dict.mem_of_get? found
  simp only [posts, List.mem_cons, Prod.mk.injEq, List.not_mem_nil, or_false] at registered
  obtain ⟨_, rfl⟩ | ⟨_, rfl⟩ | ⟨_, rfl⟩ := registered
  · cases hrel
  · cases hrel
  · have member := Dict.mem_of_get? hrel
    simp only [post, List.mem_cons, Prod.mk.injEq, List.not_mem_nil, or_false] at member
    exact ⟨rfl, member.imp And.right And.right⟩

theorem posts_joinColumn {e : Entity} {column : String} (h : posts.JoinColumn e column) :
    (e, column) ∈ [(post, "slug"), (postTag, "post"), (postTag, "tag"), (tag, "code")] := by
  cases h with
  | near has hrel direct =>
      obtain ⟨rfl, rfl | rfl⟩ := posts_relation has hrel
      · decide
      · cases direct
  | far has hrel htarget =>
      obtain ⟨rfl, rfl | rfl⟩ := posts_relation has hrel <;> cases htarget <;> decide
  | middle has hrel through hlink hmiddle =>
      obtain ⟨rfl, rfl | rfl⟩ := posts_relation has hrel
      · cases through
      · cases through
        cases hlink
        cases hmiddle
        decide

theorem posts_declared {e : Entity} {column : String} (h : posts.JoinColumn e column) :
    e.hasScalar column = true := by
  have all : ∀ entry ∈ [(post, "slug"), (postTag, "post"), (postTag, "tag"), (tag, "code")],
      entry.1.hasScalar entry.2 = true := by decide
  exact all _ (posts_joinColumn h)

/-- The values of the four join columns. -/
theorem posts_joinValue {s : MemoryStore} {v : Json} (h : s.JoinValue posts v) :
    v ∈ [(post, "slug"), (postTag, "post"), (postTag, "tag"), (tag, "code")].flatMap
      fun entry => (s.table entry.1.name).rows.map (Json.field · entry.2) := by
  obtain ⟨e, column, row, declared, stored, rfl⟩ := h
  exact List.mem_flatMap.mpr ⟨_, posts_joinColumn declared, List.mem_map_of_mem stored⟩

/-- A tag that is linked twice, one that is linked once, and one that is not. -/
def repeatedLink : MemoryStore :=
  [("Tag", ⟨[tagRow 1 "db" "Databases", tagRow 2 "web" "Web", tagRow 3 "ui" "Interfaces"], 3⟩),
   ("PostTag", ⟨[linkRow 1 "rows" "db", linkRow 2 "rows" "db", linkRow 3 "rows" "web"], 3⟩),
   ("Post", ⟨[postRow 1 "rows"], 1⟩)]

end Catalog

end EntityGraph
