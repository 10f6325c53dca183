import ResourceGraph.Proofs.Graph.EdgeOverlap
import ResourceGraph.Proofs.Record.Content

/-!
# Edges of roles

What a role may use is looked up among the ids that are indexed under the service that owns it. The
index is made from the nodes that stay, so such an edge never points at a node that is not there,
and only its executor can be missing. Nothing is assumed about the nodes that are proposed, nor
about the roles and their statements.
-/
namespace ResourceGraph

namespace Ordered

variable {κ : Type} [LT κ] [DecidableLT κ] [DecidableEq κ]

theorem mem_insertAll {keys set : List κ} {k : κ} :
    k ∈ insertAll keys set ↔ k ∈ keys ∨ k ∈ set := by
  induction keys generalizing set with
  | nil => simp [insertAll]
  | cons key keys ih =>
    have hrest : k ∈ insertAll (key :: keys) set ↔ k ∈ keys ∨ k ∈ insert key set := ih
    rw [hrest, mem_insert, List.mem_cons]
    tauto

end Ordered

/-! ## The index -/

namespace NodeIndex

variable {index : NodeIndex} {service key id x : String}

/-- The ids of a service; none if it is not known. -/
def idsOf (index : NodeIndex) (key : String) : List String := (index.ids? key).getD []

theorem mem_idsOf_insertAll {ids : List String} : x ∈ (index.insertAll service ids).idsOf key ↔
    key = service ∧ x ∈ ids ∨ x ∈ index.idsOf key := by
  have hids : (index.insertAll service ids).ids? key = if key = service then
      some (Ordered.insertAll ids ((index.ids? service).getD [])) else index.ids? key :=
    Ordered.lookup_adjust index.ascending
  unfold idsOf
  rw [hids]
  by_cases h : key = service
  · subst h
    simp [Ordered.mem_insertAll]
  · simp [h]

theorem mem_idsOf_insert :
    x ∈ (index.insert service id).idsOf key ↔ key = service ∧ x = id ∨ x ∈ index.idsOf key := by
  rw [insert, mem_idsOf_insertAll, List.mem_singleton]

end NodeIndex

/-! ## Where role edges end -/

namespace ResourceResolver

variable {r : ResourceResolver} {roles : Roles} {binding : RoleBinding} {roleArn executor : String}
  {policy : Policy} {statement : Statement} {target resource id : String} {e : Edge}

@[simp] theorem source_edgeFor :
    (edgeFor roleArn executor policy statement target).source = executor := by
  unfold edgeFor
  split <;> rfl

@[simp] theorem target_edgeFor :
    (edgeFor roleArn executor policy statement target).target = target := by
  unfold edgeFor
  split <;> rfl

theorem mem_services_of_owner? {d : Descriptor} (h : r.owner? resource = some d) :
    d ∈ r.catalog.services := by
  unfold owner? at h
  split at h
  · split at h
    · cases h
    · exact List.mem_of_find?_eq_some h
  · cases h

/-- Pattern, name or bare name: what a resource stands for is indexed under its owner. -/
theorem mem_idsOf_of_mem_resolve (h : id ∈ r.resolve resource) :
    ∃ d ∈ r.catalog.services, id ∈ r.index.idsOf d.key := by
  simp only [resolve] at h
  split at h
  · cases h
  · split at h
    · cases h
    · next d howner =>
      have hmem : id ∈ r.index.idsOf d.key := (List.mem_filter.1 h).1
      exact ⟨d, mem_services_of_owner? howner, hmem⟩

theorem ends_of_mem_edgesForRole (h : e ∈ r.edgesForRole roles binding) :
    e.source = binding.executor ∧ ∃ d ∈ r.catalog.services, e.target ∈ r.index.idsOf d.key := by
  obtain ⟨policy, statement, resource, target, htarget, rfl⟩ :=
    Assembler.exists_resolve_of_mem_edgesForRole h
  rw [source_edgeFor, target_edgeFor]
  exact ⟨rfl, mem_idsOf_of_mem_resolve htarget⟩

end ResourceResolver

namespace Assembler

variable {proposals : List Proposal} {key id : String}

/-! ## What an assembly indexes -/

/-- What an index starts with stays in it. -/
theorem mem_idsOf_foldl {index : NodeIndex} :
    id ∈ (proposals.foldl (fun index p =>
      match p.service with
      | some service => index.insert service p.node.id
      | none => index) index).idsOf key ↔
    id ∈ index.idsOf key ∨ ∃ p ∈ proposals, p.service = some key ∧ p.node.id = id := by
  induction proposals generalizing index with
  | nil => simp
  | cons p proposals ih =>
    rw [List.foldl_cons, ih]
    cases hservice : p.service with
    | none => simp [hservice]
    | some service =>
      simp only [NodeIndex.mem_idsOf_insert, List.exists_mem_cons_iff, hservice, Option.some.injEq]
      grind

theorem mem_idsOf_indexOf :
    id ∈ (indexOf proposals).idsOf key ↔
      ∃ p ∈ proposals, p.service = some key ∧ p.node.id = id := by
  have hempty : id ∉ NodeIndex.empty.idsOf key := List.not_mem_nil
  exact mem_idsOf_foldl.trans (or_iff_right hempty)

variable (a : Assembler) (manifest : Manifest)

/-- Of the proposals with the sanitized id of this node, the first is the node itself, as one of
this service's. Nodes that contain others are of no service. -/
def StaysFrom (service : Option String) (n : Node) : Prop :=
  ∃ before after, a.proposals manifest = before ++ ⟨service, n⟩ :: after ∧
    ∀ p ∈ before, p.node.sanitizedId ≠ n.sanitizedId

variable {a manifest}

theorem mem_keptProposals_iff {service : Option String} {n : Node} :
    ⟨service, n⟩ ∈ a.keptProposals manifest ↔ a.StaysFrom manifest service n :=
  mem_firstByKey_iff.trans (and_iff_right List.not_mem_nil)

/-- A node stays from one service at most. -/
theorem StaysFrom.unique {service other : Option String} {n : Node}
    (h : a.StaysFrom manifest service n) (hother : a.StaysFrom manifest other n) :
    service = other := by
  have hnodup : ((a.keptProposals manifest).map (·.node.sanitizedId)).Nodup :=
    nodup_map_firstByKey _
  have heq : (⟨service, n⟩ : Proposal) = ⟨other, n⟩ := List.inj_on_of_nodup_map hnodup
    (mem_keptProposals_iff.2 h) (mem_keptProposals_iff.2 hother) rfl
  exact congrArg Proposal.service heq

theorem mem_nodes_assemble_iff {n : Node} :
    n ∈ (a.assemble manifest).1.nodes ↔ ∃! service, a.StaysFrom manifest service n := by
  have hnodes : (a.assemble manifest).1.nodes = (a.keptProposals manifest).map (·.node) := rfl
  rw [hnodes, List.mem_map]
  constructor
  · rintro ⟨⟨service, _⟩, hp, rfl⟩
    have h := mem_keptProposals_iff.1 hp
    exact ⟨service, h, fun other hother => hother.unique h⟩
  · rintro ⟨service, h, -⟩
    exact ⟨⟨service, n⟩, mem_keptProposals_iff.2 h, rfl⟩

theorem mem_idsOf_resolver_iff :
    id ∈ (a.resolver manifest).index.idsOf key ↔
      ∃ n, a.StaysFrom manifest (some key) n ∧ n.id = id := by
  have hindex : (a.resolver manifest).index = indexOf (a.keptProposals manifest) := rfl
  rw [hindex, mem_idsOf_indexOf]
  constructor
  · rintro ⟨⟨service, n⟩, hp, rfl, hid⟩
    exact ⟨n, mem_keptProposals_iff.1 hp, hid⟩
  · rintro ⟨n, hn, hid⟩
    exact ⟨⟨some key, n⟩, mem_keptProposals_iff.2 hn, rfl, hid⟩

theorem target_mem_nodeIds {binding : RoleBinding} {e : Edge}
    (h : e ∈ (a.resolver manifest).edgesForRole a.knownRoles binding) :
    e.target ∈ (a.assemble manifest).1.nodeIds := by
  obtain ⟨-, d, -, htarget⟩ := ResourceResolver.ends_of_mem_edgesForRole h
  obtain ⟨n, hn, hid⟩ := mem_idsOf_resolver_iff.1 htarget
  exact List.mem_map.2 ⟨n, mem_nodes_assemble_iff.2 ⟨some d.key, hn, fun _ h => h.unique hn⟩, hid⟩

variable (a manifest)

/-- What one call found in a region. -/
def found (region service operation : String) (items : List Json) : Key × List Record :=
  (⟨"1", region, service, operation⟩, items.map (⟨⟨"1", region, 0⟩, [], ·⟩))

/-- Everything that a call found. -/
def everything (service operation : String) : Selector :=
  ⟨service, operation, ⟨"[*].result", .project .current (.field "result")⟩⟩

/-- The account and something that is not a node may act as a role that must not read tables. -/
def tableWrites : List (Key × List Record) := [
  found "eu" "Table" "List" [.obj [("id", .str "arn:aws:table:::a.b")],
    .obj [("id", .str "arn:aws:table:::a_b")]],
  found "eu" "Role" "List" [.obj [("Arn", .str "reader"), ("RolePolicyList", .arr [.obj [
    ("PolicyName", .str "tables"), ("PolicyDocument", .obj [("Statement", .obj [
      ("Effect", .str "Deny"), ("Resource", .str "arn:aws:table:*:a*")])])]])]],
  found "eu" "Function" "List" [.obj [("roleArn", .str "reader"), ("executor", .str "1")],
    .obj [("roleArn", .str "reader"), ("executor", .str "gone")]]]

def twoTables : Assembler where
  source := .ofStore (.ofWrites tableWrites)
  catalog := ⟨[⟨"table", "Table", "Table", "table", false, false, [everything "Table" "List"], [],
    [everything "Function" "List"], []⟩], by decide⟩
  generators := []
  translators := .standard
  roleSelector := everything "Role" "List"
  partition := "aws"

def oneRegion : Manifest := ⟨[⟨"1", ["eu"]⟩], "eu"⟩

/-- The edges of the role, for one executor. -/
def readerEdges (executor : String) : List Edge :=
  (twoTables.resolver oneRegion).edgesForRole twoTables.knownRoles ⟨"reader", executor⟩

end Assembler

end ResourceGraph
