import Mathlib.Data.List.Chain
import ResourceGraph.Proofs.Scan.Layering

/-!
# Plans that cannot be built

Planning fails exactly if operations that are accepted read each other in a cycle, and then it names
an operation on such a cycle. An operation that reads itself is a cycle. What is read from outside
the plan never makes it fail.
-/
namespace ResourceGraph

/-! ## Cycles -/

section Cycles

variable {α : Type} {R : α → α → Prop} {xs : List α} {x : α}

/-- Distinct entries, each related to the next one, and the last to the first. -/
def IsCycle (R : α → α → Prop) (xs : List α) : Prop :=
  xs.Nodup ∧ ∃ x rest, xs = x :: rest ∧ List.IsChain R (x :: rest ++ [x])

theorem isCycle_singleton_iff : IsCycle R [x] ↔ R x x := by
  simp [IsCycle]

theorem IsCycle.ne_nil (h : IsCycle R xs) : xs ≠ [] := by
  obtain ⟨-, first, rest, rfl, -⟩ := h
  exact List.cons_ne_nil first rest

theorem IsCycle.exists_next (h : IsCycle R xs) (hx : x ∈ xs) : ∃ y ∈ xs, R x y := by
  obtain ⟨-, first, rest, rfl, hchain⟩ := h
  obtain ⟨before, after, hsplit⟩ := List.append_of_mem hx
  rw [hsplit, List.append_assoc, List.cons_append, List.isChain_split] at hchain
  rw [hsplit]
  cases after with
  | nil =>
    refine ⟨first, ?_, (List.isChain_cons_cons.1 hchain.2).1⟩
    rw [← hsplit]
    exact List.mem_cons_self
  | cons y after =>
    exact ⟨y, by simp, (List.isChain_cons_cons.1 hchain.2).1⟩

theorem IsCycle.mono {S : α → α → Prop} (h : IsCycle R xs) (hS : ∀ a b, R a b → S a b) :
    IsCycle S xs := by
  obtain ⟨hnodup, first, rest, rfl, hchain⟩ := h
  exact ⟨hnodup, first, rest, rfl, hchain.imp hS⟩

/-- A way from one point to another need not meet any point twice. -/
theorem exists_path_of_reflTransGen {y : α} (h : Relation.ReflTransGen R x y) :
    ∃ path, (path ++ [y]).Nodup ∧ List.IsChain R (path ++ [y]) ∧ (path ++ [y]).head? = some x := by
  induction h using Relation.ReflTransGen.head_induction_on with
  | refl => exact ⟨[], List.nodup_singleton y, .singleton y, rfl⟩
  | @head x z hstep _ ih =>
    obtain ⟨path, hnodup, hchain, hhead⟩ := ih
    by_cases hx : x ∈ path ++ [y]
    · -- the way has been at the point before, and goes on from there
      rcases List.mem_append.1 hx with hx | hx
      · obtain ⟨before, after, rfl⟩ := List.append_of_mem hx
        rw [List.append_assoc] at hnodup hchain
        exact ⟨x :: after, (List.nodup_append.1 hnodup).2.1, hchain.right_of_append, rfl⟩
      · obtain rfl := List.mem_singleton.1 hx
        exact ⟨[], List.nodup_singleton x, .singleton x, rfl⟩
    · refine ⟨x :: path, List.nodup_cons.2 ⟨hx, hnodup⟩, ?_, rfl⟩
      exact hchain.cons fun other hother => by
        rw [hhead] at hother
        obtain rfl := Option.some.inj hother
        exact hstep

/-- What is related to itself in some steps is on a cycle. -/
theorem exists_isCycle_of_transGen (h : Relation.TransGen R x x) :
    ∃ xs, x ∈ xs ∧ IsCycle R xs := by
  obtain ⟨next, hstep, hway⟩ := Relation.TransGen.head'_iff.1 h
  obtain ⟨path, hnodup, hchain, hhead⟩ := exists_path_of_reflTransGen hway
  have hcycle : List.IsChain R (x :: path ++ [x]) := by
    refine hchain.cons fun other hother => ?_
    rw [hhead] at hother
    obtain rfl := Option.some.inj hother
    exact hstep
  refine ⟨x :: path, List.mem_cons_self, ?_, x, path, rfl, hcycle⟩
  exact (List.perm_append_singleton x path).nodup_iff.1 hnodup

end Cycles

namespace Plan

open Relation (TransGen)
open DirectedGraph (IsTopologicalSort isTopologicalSort_toposort)

variable {catalog : Catalog} {accepts : String → String → Bool} {left : List PlannedOperation}
  {op : PlannedOperation} {fault : ConfigError}
  {sort : DirectedGraph.Sorter}

/-! ## Operations that read each other -/

/-- Operations that all read one of themselves are never planned. -/
theorem peel_ne_some_of_reads {names : List (String × String)}
    {levels : List (List PlannedOperation)} (hne : names ≠ [])
    (h : ∀ name ∈ names, ∃ op ∈ left, op.name = name ∧ ∃ other ∈ names, other ∈ op.reads) :
    peel left ≠ some levels := by
  intro hpeel
  induction levels generalizing left with
  | nil =>
    obtain rfl := peel_eq_some_nil_iff.1 hpeel
    obtain ⟨name, hname⟩ := List.exists_mem_of_ne_nil names hne
    obtain ⟨op, hop, -⟩ := h name hname
    exact List.not_mem_nil hop
  | cons level rest ih =>
    obtain ⟨-, -, hrest⟩ := peel_eq_some_cons_iff.1 hpeel
    -- none of them is taken away, since what each of them reads is still there
    refine ih (fun name hname => ?_) hrest
    obtain ⟨op, hop, rfl, other, hother, hreads⟩ := h name hname
    obtain ⟨producer, hproducer, rfl, -⟩ := h other hother
    have hwaits : op ∈ waiting left := mem_waiting_iff.2 ⟨hop, producer, hproducer, hreads⟩
    exact ⟨op, hwaits, rfl, producer.name, hother, hreads⟩

/-! ## Cycles of a catalog -/

/-- The operation with the first name, as the catalog first declares it, reads the other. -/
def DependsOn (catalog : Catalog) (name other : String × String) : Prop :=
  ∃ op, (declared catalog).find? (fun o => o.name = name) = some op ∧ other ∈ op.reads

theorem dependsOn_of_mem {other : String × String} (hop : op ∈ candidates catalog accepts)
    (hreads : other ∈ op.reads) : DependsOn catalog op.name other :=
  ⟨op, (mem_candidates_iff.1 hop).2, hreads⟩

theorem DependsOn.mem_names_declared {name other : String × String}
    (h : DependsOn catalog name other) : name ∈ (declared catalog).map (·.name) := by
  obtain ⟨op, hfirst, -⟩ := h
  have hname : op.name = name := by simpa using List.find?_some hfirst
  exact List.mem_map.2 ⟨op, List.mem_of_find?_eq_some hfirst, hname⟩

/-- An accepted name that depends on another is that of a candidate. -/
theorem exists_candidate_of_dependsOn {name other : String × String}
    (h : DependsOn catalog name other) (haccepts : accepts name.1 name.2 = true) :
    ∃ op ∈ candidates catalog accepts, op.name = name ∧ other ∈ op.reads := by
  obtain ⟨op, hfirst, hreads⟩ := h
  have hname : op.name = name := by simpa using List.find?_some hfirst
  subst hname
  exact ⟨op, mem_candidates_iff.2 ⟨haccepts, hfirst⟩, rfl, hreads⟩

theorem accepts_of_mem_candidates (hop : op ∈ candidates catalog accepts) :
    accepts op.name.1 op.name.2 = true :=
  (mem_candidates_iff.1 hop).1

section Places

variable {i j : Fin (candidates catalog accepts).length}

/-- An edge leads from what is read to a candidate that reads it. -/
theorem dependsOn_of_edge (h : (dependencies (candidates catalog accepts)).Edge i j) :
    DependsOn catalog ((candidates catalog accepts).get j).name
        ((candidates catalog accepts).get i).name ∧
      accepts ((candidates catalog accepts).get j).name.1
        ((candidates catalog accepts).get j).name.2 = true := by
  have hop : (candidates catalog accepts).get j ∈ candidates catalog accepts := List.get_mem _ _
  exact ⟨dependsOn_of_mem hop ((edge_dependencies_iff nodup_names_candidates).1 h),
    accepts_of_mem_candidates hop⟩

/-- A way in the graph, gone backwards, goes from each operation to one that it reads. -/
theorem transGen_dependsOn (h : TransGen (dependencies (candidates catalog accepts)).Edge i j) :
    TransGen (fun name other => DependsOn catalog name other ∧ accepts name.1 name.2 = true)
      ((candidates catalog accepts).get j).name ((candidates catalog accepts).get i).name := by
  induction h with
  | single hedge => exact .single (dependsOn_of_edge hedge)
  | tail _ hedge ih => exact .head (dependsOn_of_edge hedge) ih

end Places

/-- The fault names an operation on a cycle of accepted ones. -/
def NamesCycle (catalog : Catalog) (accepts : String → String → Bool) (fault : ConfigError) :
    Prop :=
  ∃ op ∈ candidates catalog accepts, ∃ names, fault = .dependencyCycle op.label ∧
    op.name ∈ names ∧ IsCycle (DependsOn catalog) names ∧
    ∀ name ∈ names, accepts name.1 name.2 = true

theorem namesCycle_of_buildBy_eq_error (hsort : IsTopologicalSort sort)
    (h : buildBy sort catalog accepts = .error fault) : NamesCycle catalog accepts fault := by
  obtain ⟨i, hcycle, rfl⟩ := exists_transGen_of_buildBy_eq_error hsort h
  obtain ⟨names, hname, hnames⟩ := exists_isCycle_of_transGen (transGen_dependsOn hcycle)
  refine ⟨_, List.get_mem _ _, names, rfl, hname, hnames.mono fun _ _ => And.left, ?_⟩
  intro name hmem
  obtain ⟨other, -, -, haccepts⟩ := hnames.exists_next hmem
  exact haccepts

/-- A cycle of accepted operations cannot be planned. -/
theorem buildBy_ne_ok_of_cycle (hsort : IsTopologicalSort sort) {names : List (String × String)}
    {p : Plan} (hcycle : IsCycle (DependsOn catalog) names)
    (haccepts : ∀ name ∈ names, accepts name.1 name.2 = true) :
    buildBy sort catalog accepts ≠ .ok p := by
  rw [Ne, buildBy_eq_ok_iff hsort]
  refine peel_ne_some_of_reads hcycle.ne_nil fun name hname => ?_
  obtain ⟨other, hother, hdepends⟩ := hcycle.exists_next hname
  obtain ⟨op, hop, heq, hreads⟩ := exists_candidate_of_dependsOn hdepends (haccepts name hname)
  exact ⟨op, hop, heq, other, hother, hreads⟩

/-- A plan cannot be built exactly if accepted operations read each other in a cycle. The fault
names an operation on such a cycle, and a cycle through an operation that is not accepted or not
declared is no fault. All this is so whichever topological sort is taken: it makes the same plan, or
names an operation on a cycle as well. -/
theorem build_eq_error_iff_cycle (catalog : Catalog) (accepts : String → String → Bool) :
    ((∃ fault, build catalog accepts = .error fault) ↔
      ∃ names, IsCycle (DependsOn catalog) names ∧
        ∀ name ∈ names, accepts name.1 name.2 = true) ∧
    (∀ fault, build catalog accepts = .error fault → NamesCycle catalog accepts fault) ∧
    (∀ name, DependsOn catalog name name → accepts name.1 name.2 = true →
      ∃ fault, build catalog accepts = .error fault) ∧
    ((∀ names, IsCycle (DependsOn catalog) names → ∃ name ∈ names,
        accepts name.1 name.2 = false ∨ name ∉ (declared catalog).map (·.name)) →
      ∃ p, build catalog accepts = .ok p) ∧
    ∀ sort, IsTopologicalSort sort →
      (∀ p, buildBy sort catalog accepts = .ok p ↔ build catalog accepts = .ok p) ∧
      ∀ fault, buildBy sort catalog accepts = .error fault → NamesCycle catalog accepts fault := by
  have hfails : ∀ names, IsCycle (DependsOn catalog) names →
      (∀ name ∈ names, accepts name.1 name.2 = true) →
      ∃ fault, build catalog accepts = .error fault := by
    intro names hcycle haccepts
    cases hbuild : build catalog accepts with
    | ok p =>
      exact absurd hbuild (buildBy_ne_ok_of_cycle isTopologicalSort_toposort hcycle haccepts)
    | error fault => exact ⟨fault, rfl⟩
  have hnames : ∀ fault, build catalog accepts = .error fault → NamesCycle catalog accepts fault :=
    fun fault => namesCycle_of_buildBy_eq_error isTopologicalSort_toposort
  refine ⟨⟨?_, ?_⟩, hnames, ?_, ?_, ?_⟩
  · intro h
    obtain ⟨fault, hfault⟩ := h
    obtain ⟨-, -, names, -, -, hcycle, haccepts⟩ := hnames fault hfault
    exact ⟨names, hcycle, haccepts⟩
  · intro h
    obtain ⟨names, hcycle, haccepts⟩ := h
    exact hfails names hcycle haccepts
  · intro name hself haccepts
    exact hfails [name] (isCycle_singleton_iff.2 hself) (by simpa using haccepts)
  · intro hbroken
    cases hbuild : build catalog accepts with
    | ok p => exact ⟨p, rfl⟩
    | error fault =>
      obtain ⟨-, -, names, -, -, hcycle, haccepts⟩ := hnames fault hbuild
      obtain ⟨name, hname, hexcluded | hunknown⟩ := hbroken names hcycle
      · rw [haccepts name hname] at hexcluded
        cases hexcluded
      · obtain ⟨other, -, hdepends⟩ := hcycle.exists_next hname
        exact absurd hdepends.mem_names_declared hunknown
  · intro sort hsort
    refine ⟨fun p => ?_, fun fault => namesCycle_of_buildBy_eq_error hsort⟩
    rw [buildBy_eq_ok_iff hsort, build_eq_ok_iff]

/-- Ships and ports are listed by each other, and crews by ship. -/
def ferries : Catalog where
  services := [fleet [("Crews", ["Ships"]), ("Ports", ["Ships"]), ("Ships", ["Ports"])]]
  distinct := by decide

def withoutPorts (_ operation : String) : Bool := operation ≠ "Ports"

theorem dependsOn_ferries {name other : String × String} (h : DependsOn ferries name other) :
    other = if name = ("Fleet", "Ships") then ("Fleet", "Ports") else ("Fleet", "Ships") := by
  obtain ⟨op, hfirst, hreads⟩ := h
  obtain rfl : op.name = name := by simpa using List.find?_some hfirst
  have hop : op ∈ [planned "Crews" ["Ships"], planned "Ports" ["Ships"],
      planned "Ships" ["Ports"]] := List.mem_of_find?_eq_some hfirst
  simp only [List.mem_cons, List.not_mem_nil, or_false] at hop
  rcases hop with rfl | rfl | rfl
  all_goals exact List.mem_singleton.1 hreads

theorem ports_mem_of_isCycle {names : List (String × String)}
    (h : IsCycle (DependsOn ferries) names) : ("Fleet", "Ports") ∈ names := by
  have hships : ("Fleet", "Ships") ∈ names → ("Fleet", "Ports") ∈ names := by
    intro hname
    obtain ⟨other, hother, hdepends⟩ := h.exists_next hname
    rwa [dependsOn_ferries hdepends, if_pos rfl] at hother
  obtain ⟨name, hname⟩ := List.exists_mem_of_ne_nil names h.ne_nil
  obtain ⟨other, hother, hdepends⟩ := h.exists_next hname
  rw [dependsOn_ferries hdepends] at hother
  split at hother
  · exact hother
  · exact hships hother

theorem build_eq_error_iff_cycle_ferries :
    IsCycle (DependsOn ferries) [("Fleet", "Ports"), ("Fleet", "Ships")] ∧
      (∃ fault, build ferries (fun _ _ => true) = .error fault) ∧
      build ferries (fun _ _ => true) = .error (.dependencyCycle "Fleet|Ships") ∧
      NamesCycle ferries (fun _ _ => true) (.dependencyCycle "Fleet|Ships") ∧
      (∃ p, build ferries withoutPorts = .ok p) ∧
      DependsOn crewsFirst ("Fleet", "Logs") ("Fleet", "Logs") ∧
      (∃ fault, build crewsFirst (fun _ _ => true) = .error fault) ∧
      IsTopologicalSort (fun _ => DirectedGraph.toposort) ∧
      ∃ p, buildBy (fun _ => DirectedGraph.toposort) ferries withoutPorts = .ok p := by
  obtain ⟨hiff, hnamed, -, -, -⟩ := build_eq_error_iff_cycle ferries fun _ _ => true
  have hports : DependsOn ferries ("Fleet", "Ports") ("Fleet", "Ships") :=
    ⟨planned "Ports" ["Ships"], by cbv, by decide⟩
  have hships : DependsOn ferries ("Fleet", "Ships") ("Fleet", "Ports") :=
    ⟨planned "Ships" ["Ports"], by cbv, by decide⟩
  have hcycle : IsCycle (DependsOn ferries) [("Fleet", "Ports"), ("Fleet", "Ships")] :=
    ⟨by decide, _, _, rfl, .cons_cons hports (.cons_cons hships (.singleton _))⟩
  have hbuild : build ferries (fun _ _ => true) = .error (.dependencyCycle "Fleet|Ships") := by
    cbv
  have hlogs : DependsOn crewsFirst ("Fleet", "Logs") ("Fleet", "Logs") :=
    ⟨planned "Logs" ["Logs"], by cbv, by decide⟩
  obtain ⟨-, -, -, hbroken, hsorts⟩ := build_eq_error_iff_cycle ferries withoutPorts
  obtain ⟨p, hp⟩ := hbroken fun names hnames => ⟨_, ports_mem_of_isCycle hnames, .inl (by decide)⟩
  exact ⟨hcycle, hiff.2 ⟨_, hcycle, fun _ _ => rfl⟩, hbuild, hnamed _ hbuild, ⟨p, hp⟩, hlogs,
    (build_eq_error_iff_cycle crewsFirst fun _ _ => true).2.2.1 _ hlogs rfl,
    isTopologicalSort_toposort, p, ((hsorts _ isTopologicalSort_toposort).1 p).2 hp⟩

end Plan

end ResourceGraph
