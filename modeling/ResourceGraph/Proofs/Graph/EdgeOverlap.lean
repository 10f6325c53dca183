import ResourceGraph.Proofs.Fallible
import ResourceGraph.Proofs.Graph.WellFormed

/-!
# Edges that share an id

The id of an edge is made from its ends, but not every pair of ends has an id of its own: a source
that goes on where another target starts gives the same text. Of such edges only the first proposed
stays, and a relation between two nodes can be lost. The statements say exactly when; they assume
nothing about the edges that generators propose.
-/
namespace ResourceGraph

/-! ## Ids made from ends -/

theorem toList_sanitize (id : String) : (sanitize id).toList = id.toList.map sanitizeChar := by
  rw [sanitize, String.toList_ofList]

theorem sanitize_append (s t : String) : sanitize (s ++ t) = sanitize s ++ sanitize t := by
  apply String.toList_injective
  simp [toList_sanitize]

namespace Edge

/-- The id is the one made from the ends. -/
def IsDerived (e : Edge) : Prop := e.id = idOf e.source e.target

/-- Where the source of `e` ends, that of `f` goes on, with as much as the target of `e` has before
that of `f`. -/
def Overlaps (e f : Edge) : Prop :=
  ∃ middle : String, sanitize f.source = sanitize e.source ++ "_" ++ middle ∧
    sanitize e.target = middle ++ "_" ++ sanitize f.target

theorem idOf_eq (source target : String) :
    idOf source target = sanitize source ++ "_" ++ sanitize target := by
  have hcolon : sanitize ":" = "_" := by decide
  rw [idOf, sanitize_append, sanitize_append, hcolon]

/-- Two texts cut at the same character are equal if their parts are, or if one left part reaches
into the other's right part. -/
theorem append_cons_eq_append_cons_iff {α : Type} {xs ys xs' ys' : List α} {c : α} :
    xs ++ c :: ys = xs' ++ c :: ys' ↔
      (xs = xs' ∧ ys = ys') ∨ (∃ m, xs' = xs ++ c :: m ∧ ys = m ++ c :: ys') ∨
        ∃ m, xs = xs' ++ c :: m ∧ ys' = m ++ c :: ys := by
  constructor
  · intro h
    rcases List.append_eq_append_iff.1 h with ⟨m, hx, hy⟩ | ⟨m, hx, hy⟩
    · cases m with
      | nil => exact .inl ⟨by simpa using hx.symm, by simpa using hy⟩
      | cons d m =>
        obtain ⟨rfl, htail⟩ := List.cons.inj hy
        exact .inr (.inl ⟨m, hx, htail⟩)
    · cases m with
      | nil => exact .inl ⟨by simpa using hx, by simpa using hy.symm⟩
      | cons d m =>
        obtain ⟨rfl, htail⟩ := List.cons.inj hy
        exact .inr (.inr ⟨m, hx, htail⟩)
  · rintro (⟨rfl, rfl⟩ | ⟨m, rfl, rfl⟩ | ⟨m, rfl, rfl⟩) <;> simp

theorem overlaps_iff {e f : Edge} :
    e.Overlaps f ↔ ∃ m, (sanitize f.source).toList = (sanitize e.source).toList ++ '_' :: m ∧
      (sanitize e.target).toList = m ++ '_' :: (sanitize f.target).toList := by
  constructor
  · intro h
    obtain ⟨middle, hs, ht⟩ := h
    exact ⟨middle.toList, by simp [hs], by simp [ht]⟩
  · intro h
    obtain ⟨m, hs, ht⟩ := h
    refine ⟨String.ofList m, ?_, ?_⟩
    · exact String.toList_injective (by simp [hs])
    · exact String.toList_injective (by simp [ht])

theorem idOf_eq_idOf_iff {e f : Edge} :
    idOf e.source e.target = idOf f.source f.target ↔
      (sanitize e.source = sanitize f.source ∧ sanitize e.target = sanitize f.target) ∨
        e.Overlaps f ∨ f.Overlaps e := by
  have hbar : "_".toList = ['_'] := by decide
  rw [idOf_eq, idOf_eq, overlaps_iff, overlaps_iff]
  simp only [← String.toList_inj, String.toList_append, hbar, List.append_assoc,
    List.singleton_append]
  exact append_cons_eq_append_cons_iff

/-- Overlapping edges do not have the same ends: one source is longer than the other. -/
theorem Overlaps.source_ne {e f : Edge} (h : e.Overlaps f) : e.source ≠ f.source := by
  intro heq
  obtain ⟨m, hs, -⟩ := overlaps_iff.1 h
  have hlength := congrArg List.length hs
  rw [heq, List.length_append, List.length_cons] at hlength
  omega

end Edge

/-! ## Relations that are lost -/

/-- Two nodes are related if an edge goes from one to the other. -/
def Graph.Relates (g : Graph) (source target : String) : Prop :=
  ∃ e ∈ g.edges, e.source = source ∧ e.target = target

namespace Assembler

variable (a : Assembler) (manifest : Manifest)

/-- Wherever an edge with these ends is proposed, one with its id and other ends comes before. -/
def Shadowed (source target : String) : Prop :=
  ∀ before k after, a.joined manifest = before ++ k :: after →
    k.source = source → k.target = target →
      ∃ e ∈ before, e.id = k.id ∧ ¬ (e.source = source ∧ e.target = target)

/-- The first of the edges with the id of `k` is the one that stays. -/
theorem exists_first_with_id (before after : List Edge) (k : Edge) :
    ∃ e ∈ before ++ [k], e.id = k.id ∧ e ∈ firstByKey (·.id) [] (before ++ k :: after) := by
  have hfind : ((before ++ [k]).find? (·.id = k.id)).isSome := by simp
  obtain ⟨e, he⟩ := Option.isSome_iff_exists.1 hfind
  obtain ⟨hid, pre, post, hsplit, hpre⟩ := List.find?_eq_some_iff_append.1 he
  have hkey : e.id = k.id := by simpa using hid
  refine ⟨e, by simp [hsplit], hkey, mem_firstByKey_iff.2 ⟨by simp, pre, post ++ after, ?_, ?_⟩⟩
  · have happend : before ++ k :: after = (before ++ [k]) ++ after := by simp
    rw [happend, hsplit]
    simp
  · intro y hy
    rw [hkey]
    simpa using hpre y hy

theorem relates_iff_not_shadowed (source target : String) :
    ((a.assemble manifest).1.Relates source target ↔
      ¬ a.Shadowed manifest source target) := by
  constructor
  · rintro ⟨k, hk, hs, ht⟩ hshadowed
    rw [edges_assemble] at hk
    obtain ⟨-, before, after, hsplit, hfirst⟩ := mem_firstByKey_iff.1 hk
    obtain ⟨e, he, hid, -⟩ := hshadowed before k after hsplit hs ht
    exact hfirst e he hid
  · intro hfree
    simp only [Shadowed, not_forall] at hfree
    obtain ⟨before, k, after, hsplit, hs, ht, hbefore⟩ := hfree
    obtain ⟨e, he, hid, hmem⟩ := exists_first_with_id before after k
    refine ⟨e, by rw [edges_assemble, hsplit]; exact hmem, ?_⟩
    by_contra hends
    rcases List.mem_append.1 he with he | he
    · exact hbefore ⟨e, he, hid, hends⟩
    · rw [List.mem_singleton.1 he] at hends
      exact hends ⟨hs, ht⟩

/-! ## Which ids are made from ends -/

theorem isDerived_edgesForItem {edge : EdgeDescriptor} {item : Json} {edges : List Edge}
    (h : edgesForItem edge item = .ok edges) : ∀ e ∈ edges, e.IsDerived := by
  unfold edgesForItem at h
  obtain ⟨sources, -, h⟩ := bind_eq_ok_iff.1 h
  split at h
  · cases h
    simp
  · obtain ⟨targets, -, h⟩ := bind_eq_ok_iff.1 h
    cases h
    intro e he
    obtain ⟨target, -, rfl⟩ := List.mem_map.1 he
    rfl

/-- An edge of a role goes to what a resource of one of its statements stands for. -/
theorem exists_resolve_of_mem_edgesForRole {r : ResourceResolver} {roles : Roles}
    {binding : RoleBinding} {e : Edge} (h : e ∈ r.edgesForRole roles binding) :
    ∃ policy statement resource, ∃ target ∈ r.resolve resource,
      e = ResourceResolver.edgeFor binding.roleArn binding.executor policy statement target := by
  unfold ResourceResolver.edgesForRole at h
  split at h
  · simp at h
  · simp only [List.mem_flatMap, List.mem_map] at h
    obtain ⟨policy, -, statement, -, resource, -, target, htarget, rfl⟩ := h
    exact ⟨policy, statement, resource, target, htarget, rfl⟩

theorem isDerived_edgesForRole {r : ResourceResolver} {roles : Roles} {binding : RoleBinding} :
    ∀ e ∈ r.edgesForRole roles binding, e.IsDerived := by
  intro e he
  obtain ⟨policy, statement, resource, target, -, rfl⟩ := exists_resolve_of_mem_edgesForRole he
  unfold ResourceResolver.edgeFor
  split <;> rfl

/-- A generator that proposes edges of its own gives them any id. -/
def MadeByGenerator (e : Edge) : Prop :=
  ∃ g ∈ a.generators, ∃ output, g.generate ⟨a.source, a.knownRoles⟩ = .ok output ∧
    e ∈ output.edges

/-- What resolves the resources of an assembly. -/
def resolver : ResourceResolver := ⟨a.catalog, indexOf (a.keptProposals manifest), a.partition⟩

/-- A service's selector finds the binding, or a generator gives it. -/
def Binds (binding : RoleBinding) : Prop :=
  binding ∈ a.roleBindings ∨ ∃ g ∈ a.generators, ∃ output,
    g.generate ⟨a.source, a.knownRoles⟩ = .ok output ∧ binding ∈ output.bindings

theorem mem_generatedEdges_iff {r : ResourceResolver} {ctx : GeneratorContext} {g : Generator}
    {e : Edge} : e ∈ generatedEdges r ctx g ↔ ∃ output, g.generate ctx = .ok output ∧
      (e ∈ output.edges ∨ ∃ binding ∈ output.bindings, e ∈ r.edgesForRole ctx.roles binding) := by
  unfold generatedEdges
  cases g.generate ctx with
  | ok output => simp
  | error e => simp

/-- An edge is declared by a service, resolved from a role, or a generator's own. -/
theorem mem_candidates_iff {e : Edge} : e ∈ a.candidates manifest ↔
    (∃ d ∈ a.catalog.services, ∃ edge ∈ d.edges, e ∈ a.declaredEdges edge) ∨
    (∃ binding, a.Binds binding ∧ e ∈ (a.resolver manifest).edgesForRole a.knownRoles binding) ∨
    a.MadeByGenerator e := by
  have hsplit : e ∈ a.candidates manifest ↔
      ((∃ d ∈ a.catalog.services, ∃ edge ∈ d.edges, e ∈ a.declaredEdges edge) ∨
        ∃ binding ∈ a.roleBindings, e ∈ (a.resolver manifest).edgesForRole a.knownRoles binding) ∨
      ∃ g ∈ a.generators, e ∈ generatedEdges (a.resolver manifest) ⟨a.source, a.knownRoles⟩ g := by
    simp only [candidates, proposedEdges, List.mem_append, List.mem_flatMap]
    rfl
  simp only [hsplit, mem_generatedEdges_iff]
  constructor
  · rintro ((hdeclared | ⟨binding, hb, he⟩) | ⟨g, hg, output, houtput, he | ⟨binding, hb, he⟩⟩)
    · exact .inl hdeclared
    · exact .inr (.inl ⟨binding, .inl hb, he⟩)
    · exact .inr (.inr ⟨g, hg, output, houtput, he⟩)
    · exact .inr (.inl ⟨binding, .inr ⟨g, hg, output, houtput, hb⟩, he⟩)
  · rintro (hdeclared | ⟨binding, hb | ⟨g, hg, output, houtput, hb⟩, he⟩ |
      ⟨g, hg, output, houtput, he⟩)
    · exact .inl (.inl hdeclared)
    · exact .inl (.inr ⟨binding, hb, he⟩)
    · exact .inr ⟨g, hg, output, houtput, .inr ⟨binding, hb, he⟩⟩
    · exact .inr ⟨g, hg, output, houtput, .inl he⟩

theorem isDerived_or_madeByGenerator {e : Edge} (h : e ∈ a.candidates manifest) :
    e.IsDerived ∨ a.MadeByGenerator e := by
  rcases (a.mem_candidates_iff manifest).1 h with ⟨d, -, edge, -, he⟩ | ⟨binding, -, he⟩ | hmade
  · obtain ⟨item, -, he⟩ := List.mem_flatMap.1 he
    split at he
    · next edges hedges => exact .inl (isDerived_edgesForItem hedges e he)
    · simp at he
  · exact .inl (isDerived_edgesForRole e he)
  · exact .inr hmade

/-- Two edges between nodes whose ids are made from their ends share an id without sharing the ends
exactly if they overlap. -/
theorem same_id_iff_overlaps {e f : Edge} (he : e ∈ a.joined manifest) (hf : f ∈ a.joined manifest)
    (hde : e.IsDerived) (hdf : f.IsDerived) :
    (f.id = e.id ∧ ¬ (f.source = e.source ∧ f.target = e.target)) ↔
      e.Overlaps f ∨ f.Overlaps e := by
  obtain ⟨-, hes, het⟩ := (a.mem_joined_iff manifest).1 he
  obtain ⟨-, hfs, hft⟩ := (a.mem_joined_iff manifest).1 hf
  have hwf := a.wellFormed_assemble manifest
  rw [hde, hdf, eq_comm, Edge.idOf_eq_idOf_iff]
  constructor
  · intro h
    obtain ⟨⟨hs, ht⟩ | h, hne⟩ := h
    · exact absurd ⟨(hwf.sanitize_inj hes hfs hs).symm, (hwf.sanitize_inj het hft ht).symm⟩ hne
    · exact h
  · intro h
    refine ⟨.inr h, fun hends => ?_⟩
    rcases h with h | h
    · exact h.source_ne hends.1.symm
    · exact h.source_ne hends.1

/-- A relation that is proposed between two nodes is lost exactly if every edge that proposes it
comes after one with its id and other ends. Where ids are made from ends, as all are but those of
edges that a generator makes itself, these are the edges that overlap. -/
theorem relation_lost_iff {e : Edge} (he : e ∈ a.candidates manifest)
    (hs : e.source ∈ (a.assemble manifest).1.nodeIds)
    (ht : e.target ∈ (a.assemble manifest).1.nodeIds) :
    (¬ (a.assemble manifest).1.Relates e.source e.target ↔
      a.Shadowed manifest e.source e.target) ∧
    (∀ f ∈ a.joined manifest, e.IsDerived → f.IsDerived →
      ((f.id = e.id ∧ ¬ (f.source = e.source ∧ f.target = e.target)) ↔
        e.Overlaps f ∨ f.Overlaps e)) ∧
    ∀ f ∈ a.candidates manifest, f.IsDerived ∨ a.MadeByGenerator f := by
  have hjoined : e ∈ a.joined manifest := (a.mem_joined_iff manifest).2 ⟨he, hs, ht⟩
  refine ⟨?_, fun f hf => a.same_id_iff_overlaps manifest hjoined hf,
    fun f hf => a.isDerived_or_madeByGenerator manifest hf⟩
  rw [relates_iff_not_shadowed, not_not]

/-! ## Two relations with one id -/

/-- Four accounts, and a generator that relates the first to the second and the third to the
fourth. -/
def overlapping : Assembler where
  source := .ofStore .empty
  catalog := ⟨[], .nil⟩
  generators := [⟨"fixed", fun _ =>
    .ok ⟨[Edge.between "a:b" "c" "first", Edge.between "a" "b:c" "second"], []⟩⟩]
  translators := .standard
  roleSelector := ⟨"IAM", "ListRoles", ⟨"@", .current⟩⟩
  partition := "aws"

def fourAccounts : Manifest := ⟨[⟨"a:b", []⟩, ⟨"c", []⟩, ⟨"a", []⟩, ⟨"b:c", []⟩], "us-east-1"⟩

theorem edges_overlapping :
    (overlapping.assemble fourAccounts).1.edges = [Edge.between "a:b" "c" "first"] := by
  rfl

theorem overlapping_second_shadowed :
    Edge.between "a" "b:c" "second" ∈ overlapping.candidates fourAccounts ∧
      "a" ∈ (overlapping.assemble fourAccounts).1.nodeIds ∧
      "b:c" ∈ (overlapping.assemble fourAccounts).1.nodeIds ∧
      overlapping.Shadowed fourAccounts "a" "b:c" := by
  have hmem : Edge.between "a" "b:c" "second" ∈ overlapping.candidates fourAccounts :=
    List.mem_cons_of_mem _ List.mem_cons_self
  have hs : "a" ∈ (overlapping.assemble fourAccounts).1.nodeIds := by decide
  have ht : "b:c" ∈ (overlapping.assemble fourAccounts).1.nodeIds := by decide
  refine ⟨hmem, hs, ht, (relation_lost_iff overlapping fourAccounts hmem hs ht).1.1 ?_⟩
  intro h
  obtain ⟨k, hk, hks, -⟩ := h
  rw [edges_overlapping, List.mem_singleton] at hk
  subst hk
  exact absurd hks (by decide)

/-- Not every relation that is proposed between two nodes is in the graph. -/
theorem proposed_relation_lost :
    ¬ ∀ e ∈ overlapping.candidates fourAccounts,
      e.source ∈ (overlapping.assemble fourAccounts).1.nodeIds →
      e.target ∈ (overlapping.assemble fourAccounts).1.nodeIds →
      (overlapping.assemble fourAccounts).1.Relates e.source e.target := by
  intro h
  obtain ⟨k, hk, hks, -⟩ := h (Edge.between "a" "b:c" "second")
    (List.mem_cons_of_mem _ List.mem_cons_self) (by decide) (by decide)
  rw [edges_overlapping, List.mem_singleton] at hk
  subst hk
  exact absurd hks (by decide)

end Assembler

end ResourceGraph
