import EntityQuery.Query.Written
import Mathlib.Data.List.Forall2

/-!
# Spellings of queries

A query is written in one way, and may be read from others.  There is a choice at every node by itself: the
kind and the fields may stand in an array; in an object an `is_array` that is false may be left out, and
members of other names may be added; a root that is a name may stand in an object, and the record of a
component in an array.  `Query.Spelled` has all of these, and all of them are read as the query
(`Query.ofWritten?_of_spelled`).

* `Query.Kind.Spelled.ofJson?`: a node is read as what its fields make it, however it is spelled.
* `Query.ofWritten?_of_node`: a written query is read one node at a time.
* `Query.spelled_toJson`: the written form is one of the spellings.

The predicate of a filter is a value like any other: it has no other spellings, and is read as it is, even
where it looks like a node.
-/

namespace EntityQuery

namespace Root

/-- The ways to write a root: its name, alone or in an object, or the record of a component, in an object
with whatever other members or in an array. -/
inductive Spelled : Root → Json → Prop where
  | name {name : String} {root : Root} (h : ofName? name = some root) : Spelled root (.str name)
  | unit {name : String} {root : Root} (h : ofName? name = some root) : Spelled root (.obj [(name, .null)])
  | record {component : String} {ms : List (String × Json)}
      (h : Entries.get? "component" ms = some (.str component)) :
      Spelled (.entities component) (.obj [("entities", .obj ms)])
  | array (component : String) : Spelled (.entities component) (.obj [("entities", .arr [.str component])])

theorem spelled_toJson (root : Root) : root.Spelled root.toJson := by
  cases root with
  | actor | location | none => exact .name rfl
  | entities component      => exact .record rfl

/-- Within a node, a root is read from each of its spellings. -/
theorem Spelled.ofJson? {root : Root} {v : Json} (h : root.Spelled v) : Root.ofJson? true v = some root := by
  cases h with
  | name h          => exact h
  | array component => rfl
  | unit h          =>
      -- No root has the name `entities` alone.
      refine (if_neg ?_).trans h
      rintro rfl
      cases h
  | record h        => simp [Root.ofJson?, Json.record?, Json.fields?, h]

end Root

namespace Query

/-! ### Nodes -/

/-- A field stands in an object with its value; an `is_array` that is false may be left out. -/
def Stands (ms : List (String × Json)) (name : String) (value : Json) : Prop :=
  Entries.get? name ms = some value ∨
    name = "is_array" ∧ value = .bool false ∧ Entries.get? name ms = none

/-- The ways to write a node of a kind whose fields have these values, in the order of their declaration:
an array, or an object with whatever other members. -/
inductive Kind.Spelled (kind : Kind) (values : List Json) : Json → Prop where
  | array (hlength : values.length = kind.fieldNames.length) :
      Spelled kind values (.arr (.str kind.name :: values))
  | object {ms : List (String × Json)} (hkind : Entries.get? "type" ms = some (.str kind.name))
      (hfields : List.Forall₂ (Stands ms) kind.fieldNames values) : Spelled kind values (.obj ms)

variable {kind : Kind} {names : List String} {values : List Json} {v : Json} {ms : List (String × Json)}

theorem stands_insert {name : String} (h : List.Forall₂ (Stands ms) names values) (hname : name ∉ names)
    (w : Json) : List.Forall₂ (Stands (Entries.insert name w ms)) names values := by
  induction h with
  | nil => exact .nil
  | cons hfield _ ih =>
      obtain ⟨hother, hnames⟩ := not_or.1 (mt List.mem_cons.2 hname)
      refine .cons ?_ (ih hnames)
      unfold Stands
      rw [Entries.get?_insert, if_neg (Ne.symm hother)]
      exact hfield

/-- Members of other names may be added to an object. -/
theorem Kind.Spelled.insert {name : String} (h : kind.Spelled values (.obj ms))
    (hname : name ∉ "type" :: kind.fieldNames) (w : Json) :
    kind.Spelled values (.obj (Entries.insert name w ms)) := by
  obtain ⟨htype, hfields⟩ := not_or.1 (mt List.mem_cons.2 hname)
  cases h with
  | object hkind h =>
      refine .object ?_ (stands_insert h hfields w)
      rw [Entries.get?_insert, if_neg (Ne.symm htype), hkind]

/-- Only an `is_array` may be left out. -/
theorem Stands.get?_eq {name : String} {value : Json} (h : Stands ms name value) (hname : name ≠ "is_array") :
    Entries.get? name ms = some value := by
  rcases h with h | ⟨heq, -⟩
  · exact h
  · exact (hname heq).elim

theorem get?_eq_of_stands (h : List.Forall₂ (Stands ms) names values) (hnames : "is_array" ∉ names) :
    names.map (Entries.get? · ms) = values.map some := by
  induction h with
  | nil => rfl
  | cons hfield _ ih =>
      obtain ⟨hname, hnames⟩ := not_or.1 (mt List.mem_cons.2 hnames)
      rw [List.map_cons, List.map_cons, hfield.get?_eq (Ne.symm hname), ih hnames]

/-- It makes no difference to a node whether an `is_array` that is false is left out. -/
theorem Node.ofFields?_of_stands (h : List.Forall₂ (Stands ms) kind.fieldNames values) :
    Node.ofFields? kind (kind.fieldNames.map (Entries.get? · ms)) =
      Node.ofFields? kind (values.map some) := by
  cases kind with
  | source | filter | union | arrayIteration => rw [get?_eq_of_stands h (by decide)]
  | step                                     =>
      -- A step has the one field that may be left out.
      obtain ⟨field, _, hfield, hrest, rfl⟩ := List.forall₂_cons_left_iff.1 h
      obtain ⟨isArray, _, hisArray, hlast, rfl⟩ := List.forall₂_cons_left_iff.1 hrest
      obtain ⟨parent, _, hparent, hnil, rfl⟩ := List.forall₂_cons_left_iff.1 hlast
      obtain rfl := List.forall₂_nil_left_iff.1 hnil
      simp only [Kind.fieldNames, List.map_cons, List.map_nil, hfield.get?_eq (by decide),
        hparent.get?_eq (by decide)]
      rcases hisArray with hisArray | ⟨-, rfl, hisArray⟩
      · rw [hisArray]
      · rw [hisArray]
        cases field <;> rfl

/-- However a node is spelled, it is read as its fields are. -/
theorem Kind.Spelled.ofJson? (h : kind.Spelled values v) (atTop : Bool) :
    Node.ofJson? atTop v = Node.ofFields? kind (values.map some) := by
  have htag : Kind.ofTag? atTop (.str kind.name) = some kind := Kind.ofName?_name kind
  cases h with
  | array hlength        => simp [Node.ofJson?, Node.split?, htag, Json.fields?, hlength]
  | object hkind hfields =>
      rw [← Node.ofFields?_of_stands hfields]
      simp [Node.ofJson?, Node.split?, hkind, htag, Json.fields?]

/-! ### Queries -/

/-- The query of a node, if there is one of each branch. -/
def Node.query? : Node (Option Query) → Option Query
  | root r      => some (.root r)
  | step s a p  => p.map (.step s a)
  | filter l p  => p.map (.filter l)
  | union l r   => do return .union (← l) (← r)
  | flatten p   => p.map .flatten

/-- A query is read one node at a time. -/
theorem ofWritten?_eq (atTop : Bool) (v : Json) :
    ofWritten? atTop v = (Node.ofJson? atTop v).bind fun n => (n.map (ofWritten? false)).query? := by
  rw [ofWritten?]
  split
  all_goals
    rename_i h
    rw [h]
    rfl

theorem ofWritten?_of_node {atTop : Bool} {q : Query} {n : Node Json} (h : Node.ofJson? atTop v = some n)
    (hbranches : n.map (ofWritten? false) = q.node.map some) : ofWritten? atTop v = some q := by
  rw [ofWritten?_eq, h, Option.bind_some, hbranches]
  cases q <;> rfl

/-- The ways to write a query: a node in any way, with any spelling of its root and of its branches. -/
inductive Spelled : Query → Json → Prop where
  | root {root : Root} {r v : Json} (hroot : root.Spelled r) (h : Kind.source.Spelled [r] v) :
      Spelled (.root root) v
  | step {field : String} {isArray : Bool} {parent : Query} {p v : Json} (hparent : parent.Spelled p)
      (h : Kind.step.Spelled [.str field, .bool isArray, p] v) : Spelled (.step field isArray parent) v
  | filter {predicate : Json} {parent : Query} {p v : Json} (hparent : parent.Spelled p)
      (h : Kind.filter.Spelled [predicate, p] v) : Spelled (.filter predicate parent) v
  | union {left right : Query} {l r v : Json} (hleft : left.Spelled l) (hright : right.Spelled r)
      (h : Kind.union.Spelled [l, r] v) : Spelled (.union left right) v
  | flatten {parent : Query} {p v : Json} (hparent : parent.Spelled p)
      (h : Kind.arrayIteration.Spelled [p] v) : Spelled (.flatten parent) v

/-- The written form of a query is one of its spellings. -/
theorem spelled_toJson (q : Query) : q.Spelled q.toJson := by
  induction q with
  | root root               => exact .root root.spelled_toJson (.object rfl (.cons (.inl rfl) .nil))
  | step field isArray p ih =>
      exact .step ih (.object rfl (.cons (.inl rfl) (.cons (.inl rfl) (.cons (.inl rfl) .nil))))
  | filter predicate p ih   => exact .filter ih (.object rfl (.cons (.inl rfl) (.cons (.inl rfl) .nil)))
  | union l r ihl ihr       => exact .union ihl ihr (.object rfl (.cons (.inl rfl) (.cons (.inl rfl) .nil)))
  | flatten p ih            => exact .flatten ih (.object rfl (.cons (.inl rfl) .nil))

theorem Spelled.insert {q : Query} {name : String} (h : q.Spelled (.obj ms))
    (hname : name ∉ "type" :: q.kind.fieldNames) (w : Json) : q.Spelled (.obj (Entries.insert name w ms)) := by
  cases h with
  | root hroot h          => exact .root hroot (h.insert hname w)
  | step hparent h        => exact .step hparent (h.insert hname w)
  | filter hparent h      => exact .filter hparent (h.insert hname w)
  | union hleft hright h  => exact .union hleft hright (h.insert hname w)
  | flatten hparent h     => exact .flatten hparent (h.insert hname w)

/-- A query is read from each of its spellings, at the top and below. -/
theorem ofWritten?_of_spelled {q : Query} (h : q.Spelled v) (atTop : Bool) : ofWritten? atTop v = some q := by
  induction h generalizing atTop with
  | root hroot h                 =>
      have hnode := (h.ofJson? atTop).trans (congrArg (Option.map Node.root) hroot.ofJson?)
      exact ofWritten?_of_node hnode rfl
  | step hparent h ih            =>
      exact ofWritten?_of_node (h.ofJson? atTop) (congrArg (Node.step _ _) (ih false))
  | filter hparent h ih          =>
      -- The predicate is no branch, and nothing in it is read.
      exact ofWritten?_of_node (h.ofJson? atTop) (congrArg (Node.filter _) (ih false))
  | union hleft hright h ihl ihr =>
      exact ofWritten?_of_node (h.ofJson? atTop) (congrArg₂ Node.union (ihl false) (ihr false))
  | flatten hparent h ih         =>
      exact ofWritten?_of_node (h.ofJson? atTop) (congrArg Node.flatten (ih false))

/-- **A query is read from what it is written as, and from all its other spellings**, at every depth and
with whichever at each node.  A member of another name may be added to an object of any of them. -/
theorem spellings_agree (q : Query) :
    ofJson? q.toJson = some q ∧ (∀ v, q.Spelled v → ofJson? v = some q) ∧
    ∀ (ms : List (String × Json)) (name : String) (w : Json), q.Spelled (.obj ms) →
      name ∉ "type" :: q.kind.fieldNames → q.Spelled (.obj (Entries.insert name w ms)) :=
  ⟨ofWritten?_of_spelled q.spelled_toJson true, fun _ h => ofWritten?_of_spelled h true,
    fun _ _ w h hname => h.insert hname w⟩

/-- A union with a branch in arrays and a branch in objects, and with a note.  The predicate could be read
as a query. -/
theorem company_spelled_in_many_ways :
    let predicate : Json := (Query.root .actor).toJson
    let company : Query := .step "friend" false (.root (.entities "core:actor"))
    let q : Query := .union (.filter predicate company) (.flatten (.root .actor))
    let companions : Json := .arr [.str "Source", .obj [("entities", .arr [.str "core:actor"])]]
    let friends : Json := .obj [("field", .str "friend"), ("parent", companions), ("type", .str "Step")]
    let actor : Json := .obj [("kind", .obj [("actor", .null)]), ("type", .str "Source")]
    let actors : Json := .obj [("parent", actor), ("type", .str "ArrayIteration")]
    let ms : List (String × Json) :=
      [("left", .arr [.str "Filter", predicate, friends]), ("right", actors), ("type", .str "Union")]
    ofJson? predicate = some (.root .actor) ∧ ofJson? (.obj ms) = some q ∧
    ofJson? (.obj (Entries.insert "note" (.str "for the feast") ms)) = some q := by
  intro predicate company q companions friends actor actors ms
  have hcompany : company.Spelled friends := by
    refine .step (.root (.array _) (.array rfl)) (.object rfl ?_)
    exact .cons (.inl rfl) (.cons (.inr ⟨rfl, rfl, rfl⟩) (.cons (.inl rfl) .nil))
  have hactor : (Query.root .actor).Spelled actor :=
    .root (.unit rfl) (.object rfl (.cons (.inl rfl) .nil))
  have hactors : (Query.flatten (.root .actor)).Spelled actors :=
    .flatten hactor (.object rfl (.cons (.inl rfl) .nil))
  have hspelled : q.Spelled (.obj ms) :=
    .union (.filter hcompany (.array rfl)) hactors (.object rfl (.cons (.inl rfl) (.cons (.inl rfl) .nil)))
  obtain ⟨-, hread, hinsert⟩ := spellings_agree q
  exact ⟨(spellings_agree _).1, hread _ hspelled, hread _ (hinsert ms "note" _ hspelled (by decide))⟩

end Query

end EntityQuery
