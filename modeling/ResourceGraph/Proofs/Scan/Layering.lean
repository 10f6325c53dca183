import Mathlib.Data.List.Permutation
import ResourceGraph.Proofs.Scan.Candidates
import ResourceGraph.Proofs.Scan.OnePass
import ResourceGraph.Proofs.Scan.Toposort

/-!
# Levels of a plan

The level of a planned operation is the length of the longest chain of planned producers that leads
to it. So the producers of an operation are in lower levels, and what a plan looks like hangs only
on which operations are planned and what they read. Which topological sort is taken makes no
difference.
-/
namespace ResourceGraph

namespace Plan

open Relation (TransGen)
open PlannedOperation (sortsBefore Precedes)
open DirectedGraph (IsTopologicalSort isTopologicalSort_toposort)

variable {left ops level : List PlannedOperation} {levels : List (List PlannedOperation)}
  {op producer : PlannedOperation} {name : String × String} {k n : Nat} {i j : Fin ops.length}

/-! ## The graph of the operations -/

theorem name_of_place?_eq_some (h : place? ops name = some i) : (ops.get i).name = name := by
  rw [place?] at h
  simpa using List.find?_some h

theorem place?_eq_some_iff (h : (ops.map (·.name)).Nodup) :
    place? ops name = some i ↔ (ops.get i).name = name := by
  constructor
  · exact name_of_place?_eq_some
  · rintro rfl
    have hsome : (place? ops (ops.get i).name).isSome := by
      rw [place?, List.find?_isSome]
      exact ⟨i, List.mem_finRange i, by simp⟩
    obtain ⟨j, hj⟩ := Option.isSome_iff_exists.1 hsome
    have hname : (ops.get j).name = (ops.get i).name := name_of_place?_eq_some hj
    have hop : ops.get j = ops.get i :=
      List.inj_on_of_nodup_map h (List.get_mem _ _) (List.get_mem _ _) hname
    rw [hj, Fin.ext (h.of_map.getElem_inj_iff.1 hop)]

theorem mem_producersOf_iff (h : (ops.map (·.name)).Nodup) :
    i ∈ producersOf ops j ↔ (ops.get i).name ∈ (ops.get j).reads := by
  simp only [producersOf, List.mem_filterMap, place?_eq_some_iff h, exists_eq_right']

theorem edge_foldl_updateEdge_iff {g : DirectedGraph n} {a b consumer : Fin n}
    {producers : List (Fin n)} :
    (producers.foldl (fun g producer => g.updateEdge producer consumer) g).Edge a b ↔
      g.Edge a b ∨ a ∈ producers ∧ b = consumer := by
  induction producers generalizing g with
  | nil => simp
  | cons producer producers ih =>
    rw [List.foldl_cons, ih, DirectedGraph.edge_updateEdge_iff, List.mem_cons, or_and_right,
      or_assoc]

/-- There is an edge to an operation from each one that it reads. -/
theorem edge_dependencies_iff (h : (ops.map (·.name)).Nodup) :
    (dependencies ops).Edge i j ↔ (ops.get i).name ∈ (ops.get j).reads := by
  have hfold : ∀ (consumers : List (Fin ops.length)) (g : DirectedGraph ops.length),
      (consumers.foldl (fun g consumer => (producersOf ops consumer).foldl
        (fun g producer => g.updateEdge producer consumer) g) g).Edge i j ↔
          g.Edge i j ∨ j ∈ consumers ∧ i ∈ producersOf ops j := by
    intro consumers
    induction consumers with
    | nil => simp
    | cons consumer consumers ih =>
      intro g
      rw [List.foldl_cons, ih, edge_foldl_updateEdge_iff, List.mem_cons, or_assoc, or_and_right]
      refine or_congr_right (or_congr_left ?_)
      constructor
      · rintro ⟨hproducer, rfl⟩
        exact ⟨rfl, hproducer⟩
      · rintro ⟨rfl, hproducer⟩
        exact ⟨hproducer, rfl⟩
  rw [dependencies, hfold, mem_producersOf_iff h]
  simp [DirectedGraph.not_edge_empty]

/-- A way in the graph makes a chain longer. -/
theorem Chain.of_transGen (h : (ops.map (·.name)).Nodup) (hchain : Chain ops n (ops.get i))
    (hway : TransGen (dependencies ops).Edge i j) : ∃ m, n < m ∧ Chain ops m (ops.get j) := by
  induction hway with
  | single hedge =>
    exact ⟨n + 1, Nat.lt_succ_self n,
      hchain.after (List.get_mem _ _) ((edge_dependencies_iff h).1 hedge)⟩
  | tail _ hedge ih =>
    obtain ⟨m, hm, hchain⟩ := ih
    exact ⟨m + 1, Nat.lt_succ_of_lt hm,
      hchain.after (List.get_mem _ _) ((edge_dependencies_iff h).1 hedge)⟩

/-- Operations on a cycle have no longest chain, and so no level. -/
theorem not_transGen_of_peel_eq_some (h : (ops.map (·.name)).Nodup)
    (hpeel : peel ops = some levels) : ¬ TransGen (dependencies ops).Edge i i := by
  intro hcycle
  have hmem : ops.get i ∈ levels.flatten := (perm_flatten hpeel).mem_iff.2 (List.get_mem _ _)
  obtain ⟨level, hlevel, hop⟩ := List.mem_flatten.1 hmem
  obtain ⟨k, hk⟩ := List.mem_iff_getElem?.1 hlevel
  obtain ⟨hchain, hlongest⟩ := (mem_level_iff hpeel).1 ⟨level, hk, hop⟩
  obtain ⟨m, hm, hlonger⟩ := hchain.of_transGen h hcycle
  exact absurd (hlongest m hlonger) (Nat.not_le.2 hm)

/-! ## Sorting and peeling -/

variable {sort : DirectedGraph.Sorter}

theorem perm_map_of_sort {order : List (Fin ops.length)} (hsort : IsTopologicalSort sort)
    (h : sort ops.length (dependencies ops) = .ok order) :
    (order.map ops.get).Perm ops := by
  refine ((hsort.perm h).map _).trans (.of_eq ?_)
  exact List.ext_getElem (by simp) fun k _ _ => by simp

theorem producersFirst_map_of_sort {order : List (Fin ops.length)}
    (hsort : IsTopologicalSort sort) (hnodup : (ops.map (·.name)).Nodup)
    (h : sort ops.length (dependencies ops) = .ok order) :
    ProducersFirst (order.map ops.get) where
  behind := by
    refine List.pairwise_map.2 ((hsort.forward h).imp fun hedge hreads => hedge ?_)
    exact (edge_dependencies_iff hnodup).2 hreads
  irreflexive := by
    intro op hop hreads
    obtain ⟨i, -, rfl⟩ := List.mem_map.1 hop
    exact hsort.irreflexive h i ((edge_dependencies_iff hnodup).2 hreads)

/-! ## Plans -/

variable {catalog other : Catalog} {accepts : String → String → Bool} {p : Plan}

def InLevel (p : Plan) (k : Nat) (op : PlannedOperation) : Prop :=
  ∃ level, p.levels[k]? = some level ∧ op ∈ level

/-- The levels of a plan are the layers by longest chain of what the catalog declares and `accepts`
lets in. -/
structure Layered (catalog : Catalog) (accepts : String → String → Bool) (p : Plan) : Prop where
  /-- The pairs of service and operation in the plan are the accepted ones among those declared. -/
  pairs : ∀ name, name ∈ p.levels.flatten.map (·.name) ↔
    accepts name.1 name.2 = true ∧ name ∈ (declared catalog).map (·.name)
  once : (p.levels.flatten.map (·.name)).Nodup
  first : ∀ op ∈ p.levels.flatten, (declared catalog).find? (fun o => o.name = op.name) = some op
  longest : ∀ k op, p.InLevel k op ↔ LongestChain p.levels.flatten k op
  lower : ∀ k op, p.InLevel k op → ∀ producer ∈ p.levels.flatten, producer.name ∈ op.reads →
    ∃ j < k, p.InLevel j producer
  nonempty : ∀ level ∈ p.levels, level ≠ []
  sorted : ∀ level ∈ p.levels, level.Pairwise Precedes
  found : ∀ service operation k, p.levelOf? service operation = some k ↔
    ∃ op, p.InLevel k op ∧ op.name = (service, operation)
  notFound : ∀ service operation, p.levelOf? service operation = none ↔
    (service, operation) ∉ p.levels.flatten.map (·.name)

/-- A plan that is built by sorting has the levels that peeling gives. -/
theorem buildBy_eq_ok_iff (hsort : IsTopologicalSort sort) :
    buildBy sort catalog accepts = .ok p ↔
      peel (candidates catalog accepts) = some p.levels := by
  have hnodup : ((candidates catalog accepts).map (·.name)).Nodup := nodup_names_candidates
  obtain ⟨levels⟩ := p
  simp only [buildBy]
  cases h : sort _ (dependencies (candidates catalog accepts)) with
  | ok order =>
    have hperm := perm_map_of_sort hsort h
    have hpeel : peel (candidates catalog accepts) = some (inOnePass _) :=
      peel_eq_some_of_perm hperm ((hperm.map _).nodup_iff.2 hnodup)
        (peel_eq_inOnePass (producersFirst_map_of_sort hsort hnodup h)
          ((hperm.map _).nodup_iff.2 hnodup))
    simp only [hpeel, Except.ok.injEq, Plan.mk.injEq, Option.some.injEq]
  | error i =>
    refine iff_of_false nofun fun hpeel => ?_
    exact not_transGen_of_peel_eq_some hnodup hpeel (hsort.onCycle h)

/-- If there is none, the sort has found an operation on a cycle. -/
theorem exists_transGen_of_buildBy_eq_error (hsort : IsTopologicalSort sort)
    {fault : ConfigError} (h : buildBy sort catalog accepts = .error fault) :
    ∃ i : Fin (candidates catalog accepts).length,
      TransGen (dependencies (candidates catalog accepts)).Edge i i ∧
        fault = .dependencyCycle ((candidates catalog accepts).get i).label := by
  simp only [buildBy] at h
  cases hfound : sort _ (dependencies (candidates catalog accepts)) with
  | ok order =>
    rw [hfound] at h
    cases h
  | error i =>
    rw [hfound] at h
    exact ⟨i, hsort.onCycle hfound, (Except.error.inj h).symm⟩

theorem build_eq_ok_iff : build catalog accepts = .ok p ↔
    peel (candidates catalog accepts) = some p.levels :=
  buildBy_eq_ok_iff isTopologicalSort_toposort

theorem exists_inLevel_iff : (∃ k, p.InLevel k op) ↔ op ∈ p.levels.flatten := by
  rw [List.mem_flatten]
  constructor
  · intro h
    obtain ⟨k, level, hk, hop⟩ := h
    exact ⟨level, List.mem_of_getElem? hk, hop⟩
  · intro h
    obtain ⟨level, hlevel, hop⟩ := h
    obtain ⟨k, hk⟩ := List.mem_iff_getElem?.1 hlevel
    exact ⟨k, level, hk, hop⟩

/-- If no operation is in two levels, the level of a name is where an operation has it. -/
theorem levelOf?_eq_some_iff {service operation : String}
    (hunique : ∀ i j o o', p.InLevel i o → p.InLevel j o' → o.name = o'.name → i = j) :
    p.levelOf? service operation = some k ↔
      ∃ op, p.InLevel k op ∧ op.name = (service, operation) := by
  rw [levelOf?, List.findIdx?_eq_some_iff_getElem]
  constructor
  · intro h
    obtain ⟨hk, hany, -⟩ := h
    obtain ⟨op, hop, hname⟩ := List.any_eq_true.1 hany
    exact ⟨op, ⟨_, List.getElem?_eq_getElem hk, hop⟩, of_decide_eq_true hname⟩
  · intro h
    obtain ⟨op, ⟨level, hlevel, hop⟩, hname⟩ := h
    obtain ⟨hk, rfl⟩ := List.getElem?_eq_some_iff.1 hlevel
    refine ⟨hk, List.any_eq_true.2 ⟨op, hop, decide_eq_true hname⟩, fun j hj hany => ?_⟩
    obtain ⟨o, ho, ho'⟩ := List.any_eq_true.1 hany
    have hjk : j = k := hunique j k o op ⟨_, List.getElem?_eq_getElem (Nat.lt_trans hj hk), ho⟩
      ⟨_, hlevel, hop⟩ ((of_decide_eq_true ho').trans hname.symm)
    exact absurd hjk (Nat.ne_of_lt hj)

theorem levelOf?_eq_none_iff {service operation : String} :
    p.levelOf? service operation = none ↔
      (service, operation) ∉ p.levels.flatten.map (·.name) := by
  rw [levelOf?, List.findIdx?_eq_none_iff]
  simp only [List.any_eq_false, decide_eq_true_eq, List.mem_map, List.mem_flatten, not_exists,
    not_and]
  constructor
  · intro h op hop
    obtain ⟨level, hlevel, hmem⟩ := hop
    exact h level hlevel op hmem
  · intro h level hlevel op hmem
    exact h op ⟨level, hlevel, hmem⟩

theorem layered_of_build_eq_ok (h : build catalog accepts = .ok p) :
    Layered catalog accepts p := by
  have hpeel := build_eq_ok_iff.1 h
  have hperm := perm_flatten hpeel
  have hlongest : ∀ k op, p.InLevel k op ↔ LongestChain p.levels.flatten k op := fun k op => by
    rw [longestChain_congr fun o => hperm.mem_iff]
    exact mem_level_iff hpeel
  have hunique : ∀ i j o o', p.InLevel i o → p.InLevel j o' → o.name = o'.name → i = j := by
    intro i j o o' ho ho' hname
    have hmem : ∀ {k x}, p.InLevel k x → x ∈ candidates catalog accepts := fun hx =>
      hperm.mem_iff.1 (exists_inLevel_iff.1 ⟨_, hx⟩)
    obtain rfl := eq_of_name_eq (hmem ho) (hmem ho') hname
    exact ((hlongest i o).1 ho).unique ((hlongest j o).1 ho')
  refine ⟨fun name => ?_, ?_, fun op hop => ?_, hlongest, ?_, fun level => level_ne_nil hpeel,
    fun level hlevel => ?_, fun service operation k => levelOf?_eq_some_iff hunique,
    fun service operation => levelOf?_eq_none_iff⟩
  · rw [(hperm.map _).mem_iff]
    exact mem_names_candidates_iff
  · exact (hperm.map _).nodup_iff.2 nodup_names_candidates
  · exact (mem_candidates_iff.1 (hperm.mem_iff.1 hop)).2
  · intro k op hop producer hproducer hreads
    obtain ⟨j, hj⟩ := exists_inLevel_iff.2 hproducer
    exact ⟨j, ((hlongest j producer).1 hj).lt_of_reads ((hlongest k op).1 hop) hreads, hj⟩
  · obtain ⟨part, -, hsub, rfl⟩ := exists_sorted_of_mem hpeel hlevel
    exact pairwise_precedes_mergeSort (nodup_names_candidates.sublist (hsub.map _))

/-- From every order of the accepted operations in which producers come first, one pass makes the
plan. -/
theorem build_eq_inOnePass {order : List PlannedOperation}
    (hperm : order.Perm (candidates catalog accepts))
    (h : ProducersFirst order) : build catalog accepts = .ok ⟨inOnePass order⟩ := by
  have hnodup : (order.map (·.name)).Nodup := (hperm.map _).nodup_iff.2 nodup_names_candidates
  exact build_eq_ok_iff.2 (peel_eq_some_of_perm hperm hnodup (peel_eq_inOnePass h hnodup))

/-- The plans are those that one pass makes from such an order. -/
theorem build_eq_ok_iff_inOnePass : build catalog accepts = .ok p ↔
    ∃ order, order.Perm (candidates catalog accepts) ∧ ProducersFirst order ∧
      p.levels = inOnePass order := by
  constructor
  · intro h
    have hpeel := build_eq_ok_iff.1 h
    have hperm := perm_flatten hpeel
    have hfirst := producersFirst_flatten hpeel
    have hsame := h.symm.trans (build_eq_inOnePass hperm hfirst)
    exact ⟨_, hperm, hfirst, congrArg Plan.levels (Except.ok.inj hsame)⟩
  · intro h
    obtain ⟨order, hperm, hfirst, hlevels⟩ := h
    obtain rfl : p = ⟨inOnePass order⟩ := by rw [← hlevels]
    exact build_eq_inOnePass hperm hfirst

/-- The levels of a plan that can be built are the layers of the accepted operations by longest
chain of planned producers. If no pair is declared twice, the order of descriptors and operations
does not matter. One pass makes the plan from every order in which producers come first, and there
is such an order if there is a plan. -/
theorem build_layered (catalog : Catalog) (accepts : String → String → Bool) :
    (∀ p, build catalog accepts = .ok p → Layered catalog accepts p) ∧
    (∀ other, catalog.Reorders other → ((declared catalog).map (·.name)).Nodup →
      ∀ p, build catalog accepts = .ok p ↔ build other accepts = .ok p) ∧
    ∀ p, build catalog accepts = .ok p ↔
      ∃ order, order.Perm (candidates catalog accepts) ∧ ProducersFirst order ∧
        p.levels = inOnePass order := by
  refine ⟨fun p => layered_of_build_eq_ok, fun other hreorders hnodup p => ?_,
    fun p => build_eq_ok_iff_inOnePass⟩
  have hperm : (candidates catalog accepts).Perm (candidates other accepts) :=
    perm_candidates hreorders hnodup
  rw [build_eq_ok_iff, build_eq_ok_iff]
  exact ⟨peel_eq_some_of_perm hperm nodup_names_candidates,
    peel_eq_some_of_perm hperm.symm nodup_names_candidates⟩

/-- The selector `Fleet|operation|@`. -/
def everything (operation : String) : Selector := ⟨"Fleet", operation, ⟨"@", .current⟩⟩

/-- A service with these operations, each with the operations that it reads. -/
def fleet (operations : List (String × List String)) : Descriptor where
  key := "fleet"
  service := "Fleet"
  label := "fleet"
  arnService := "fleet"
  isGlobal := false
  bareNameIds := false
  nodes := []
  edges := []
  iamRoles := []
  operations := operations.map fun (operation, reads) =>
    ⟨operation, reads.map fun name => ⟨name, .selector (everything name)⟩⟩

/-- Ships are listed by port, and crews by ship and port. Logs read themselves. -/
def crewsFirst : Catalog where
  services := [fleet [("Crews", ["Ships", "Ports"]), ("Logs", ["Logs"]), ("Ports", ["Logs"]),
    ("Ships", ["Ports"])]]
  distinct := by decide

def portsFirst : Catalog where
  services := [fleet [("Ports", ["Logs"]), ("Ships", ["Ports"]), ("Logs", ["Logs"]),
    ("Crews", ["Ships", "Ports"])]]
  distinct := by decide

def planned (operation : String) (reads : List String) : PlannedOperation :=
  ⟨"fleet", "Fleet", operation, false, reads.map fun name => ⟨name, .selector (everything name)⟩⟩

def withoutLogs (_ operation : String) : Bool := operation ≠ "Logs"

/-- Crews are not beside ships, although they read ports as well. -/
def fleetPlan : Plan := ⟨[
  [planned "Ports" ["Logs"]], [planned "Ships" ["Ports"]], [planned "Crews" ["Ships", "Ports"]]]⟩

theorem reorders_portsFirst : crewsFirst.Reorders portsFirst := by
  refine ⟨crewsFirst.services, .refl _, .cons ⟨?_, rfl⟩ .nil⟩
  refine List.Perm.map _ (?_ : List.Perm (α := String × List String) _ _)
  decide

theorem build_layered_fleet :
    build crewsFirst withoutLogs = .ok fleetPlan ∧ crewsFirst.Reorders portsFirst ∧
      ((declared crewsFirst).map (·.name)).Nodup ∧ Layered crewsFirst withoutLogs fleetPlan ∧
      build portsFirst withoutLogs = .ok fleetPlan ∧
      ∃ order, order.Perm (candidates crewsFirst withoutLogs) ∧ ProducersFirst order ∧
        fleetPlan.levels = inOnePass order := by
  have hbuild : build crewsFirst withoutLogs = .ok fleetPlan := by cbv
  have hnodup : ((declared crewsFirst).map (·.name)).Nodup := by decide
  obtain ⟨hlayered, hreordered, hpass⟩ := build_layered crewsFirst withoutLogs
  exact ⟨hbuild, reorders_portsFirst, hnodup, hlayered fleetPlan hbuild,
    (hreordered portsFirst reorders_portsFirst hnodup fleetPlan).1 hbuild,
    (hpass fleetPlan).1 hbuild⟩

end Plan

end ResourceGraph
