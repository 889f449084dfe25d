import EntityQuery.Engine
import EntityQuery.Proofs.Resolution.Occurrences

/-!
# Texts are entities

A text in the data of a component names an entity, and `null` stands for nothing.  Each node sees to this
by itself where it takes a value apart (`Asking.Origin.fieldValue`), and passes on what it does not:

* `Asking.inherits_proper`: whatever a treatment finds in a proper candidate is proper, that is, neither a
  plain text nor `null`.  So all candidates of a query are.
* `Candidate.Tidy.of_set`: in a set of proper candidates every text is an entity, and is there once.
* `Answer.map_candidate_of_ofSet`: an answer has the candidates of its set for members, and no others.
-/

namespace EntityQuery

namespace Candidate

/-- Not a plain value that is a text or `null`. -/
def Proper : Candidate → Prop
  | value v => v ≠ .null ∧ ∀ text, v ≠ .str text
  | _       => True

/-- The text that a candidate is: the name of an entity, or a plain text. -/
def text? : Candidate → Option String
  | entity id         => some id
  | value (.str text) => some text
  | _                 => none

/-- No two values among the candidates differ in the sign of a zero alone: those that are the same are
identical. -/
def OneZero (cs : List Candidate) : Prop :=
  ∀ v w, .value v ∈ cs → .value w ∈ cs → v.same w → v = w

/-- Candidates among which every text is an entity, and is there once. -/
structure Tidy (cs : List Candidate) : Prop where
  proper : ∀ c ∈ cs, c.Proper
  entities : ∀ c ∈ cs, ∀ text, c.text? = some text → c = entity text
  once : (cs.filterMap text?).Nodup
  /-- No two are the same, unless some differ in the sign of a zero alone. -/
  different : OneZero cs → cs.Pairwise fun c d => ¬ c.same d

variable {c d : Candidate} {cs : List Candidate}

theorem Proper.eq_entity (h : c.Proper) {text : String} (htext : c.text? = some text) :
    c = entity text := by
  cases c with
  | entity id    =>
      cases htext
      rfl
  | descriptor d => cases htext
  | value v      =>
      cases v with
      | str s                                 => exact (h.2 s rfl).elim
      | null | bool _ | num _ | arr _ | obj _ => cases htext

/-- Candidates that are the same have one key, unless they are values that differ in the sign of a zero. -/
theorem key_eq_of_same (h : c.same d) (hvalues : ∀ v w, c = value v → d = value w → v.same w → v = w) :
    c.key = d.key := by
  cases c with
  | entity id =>
      cases d with
      | entity id' => rw [show id = id' from of_decide_eq_true h]
      | value _ | descriptor _ => cases h
  | value v =>
      cases d with
      | value w => rw [hvalues v w rfl rfl h]
      | entity _ | descriptor _ => cases h
  | descriptor x =>
      cases d with
      | descriptor y =>
          obtain ⟨howner, hview⟩ : x.owner = y.owner ∧ x.view = y.view := of_decide_eq_true h
          rw [key, key, howner, hview]
      | entity _ | value _ => cases h

/-- **In a set of proper candidates every text is an entity, and is there once.** -/
theorem Tidy.of_set {s : CandidateSet} (h : ∀ c ∈ s.toList, c.Proper) : Tidy s.toList where
  proper := h
  entities c hc _ htext := (h c hc).eq_entity htext
  once := by
    refine List.pairwise_filterMap.2 (s.distinct.of_map.imp_of_mem ?_)
    rintro c d hc hd hne text htext _ htext' rfl
    exact hne (((h c hc).eq_entity htext).trans ((h d hd).eq_entity htext').symm)
  different hzeros := by
    refine (List.pairwise_map.1 s.distinct).imp_of_mem ?_
    intro c d hc hd hne hsame
    refine hne (key_eq_of_same hsame ?_)
    rintro v w rfl rfl
    exact hzeros v w hc hd

theorem proper_ofFieldValue {v : Json} (h : v ≠ .null) : (ofFieldValue v).Proper := by
  cases v with
  | str text                       => trivial
  | null                           => exact (h rfl).elim
  | bool _ | num _ | arr _ | obj _ => simp [ofFieldValue, Proper]

end Candidate

/-- **Whatever a treatment finds in a proper candidate is proper.** -/
theorem Asking.inherits_proper (a : Asking) : a.Inherits Candidate.Proper where
  entity _ := trivial
  found := by
    intro t c found h hc d hd
    cases origin_of_found h hd with
    | entity _ | descriptor _ _ => trivial
    | fieldValue hv             => exact Candidate.proper_ofFieldValue hv
    | itself _                  => exact hc

/-- The set of every node is tidy. -/
theorem Context.tidy_of_resolve {c : Context} {q : Query} {d : Nat} {run : Run} {s : CandidateSet}
    (h : (c.resolve q d).result run = .ok s) : Candidate.Tidy s.toList :=
  .of_set (forall_mem_of_resolve c.inherits_proper h)

/-! ### Answers -/

/-- The candidate that a member is. -/
def Answer.Member.candidate : Member → Candidate
  | entity id => .entity id
  | value v   => .value v

theorem Answer.Member.candidate_of_ofCandidate {c : Candidate} {m : Member} (h : ofCandidate c = .ok m) :
    m.candidate = c := by
  cases c <;> cases h <;> rfl

/-- The members of an answer are the candidates of the set that it is made of. -/
theorem Answer.map_candidate_of_ofSet {s : CandidateSet} {a : Answer} (h : ofSet s = .ok a) :
    a.members.map Member.candidate = s.toList := by
  obtain ⟨members, hmembers, rfl⟩ := Attempt.map_eq_ok.1 h
  obtain ⟨hok, rfl⟩ := (Attempt.mapM_eq_ok_iff (.entity "")).1 hmembers
  rw [List.map_map]
  refine (List.map_congr_left fun c hc => ?_).trans s.toList.map_id
  obtain ⟨m, hm⟩ := hok c hc
  simp [hm, Except.toOption, Member.candidate_of_ofCandidate hm]

namespace Engine

/-- **Every text in an answer is an entity, and is there once.**  Whatever the query, the data of the world
and the settings, and whichever resolvers the router knows, this is so of the set of every node, and of
the answer. -/
theorem texts_are_entities (e : Engine) (actor : EntityId) (scene : Scene) (traced : Bool) :
    (∀ (q : Query) (d : Nat) (run : Run) (s : CandidateSet),
      ((e.context actor scene traced).resolve q d).result run = .ok s → Candidate.Tidy s.toList) ∧
    ∀ (q : Query) (answer : Answer), (e.ask q actor scene traced).1.outcome = .ok answer →
      Candidate.Tidy (answer.members.map Answer.Member.candidate) := by
  refine ⟨fun q d run s => Context.tidy_of_resolve, fun q answer h => ?_⟩
  obtain ⟨s, hs, hanswer⟩ := Attempt.bind_eq_ok.1 h
  rw [Answer.map_candidate_of_ofSet hanswer]
  exact Context.tidy_of_resolve hs

/-- The hero's names are a list with a king in it twice, nothing, a duke in a list, and a record. -/
theorem king_is_listed_once :
    let title := Json.object [("title", .str "king")]
    let names := Json.arr [.str "king", .null, .str "king", .arr [.str "duke", .null], title]
    let world := ((∅ : Store).insert "hero" "names" names).world
    let e : Engine := .new {} .standard
    let named : Query := .step "names" false (.root .actor)
    let q : Query := .union (.flatten named) (.step "title" false named)
    let answer : Answer := ⟨[.entity "king", .entity "duke", .value title]⟩
    (e.ask q "hero" { world } false).1.outcome = .ok answer ∧
    Candidate.Tidy [.entity "king", .entity "duke", .value title] ∧
    (e.ask named "hero" { world } false).1.outcome =
      .ok ⟨[.entity "king", .value (.arr [.str "duke", .null]), .value title]⟩ := by
  intro title names world e named q answer
  have hanswer : (e.ask q "hero" { world } false).1.outcome = .ok answer := rfl
  obtain ⟨-, hanswers⟩ := e.texts_are_entities "hero" { world } false
  exact ⟨hanswer, hanswers q answer hanswer, rfl⟩

end Engine

end EntityQuery
