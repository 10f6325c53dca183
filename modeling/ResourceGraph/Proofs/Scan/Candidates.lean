import Mathlib.Data.List.Nodup
import Mathlib.Data.List.Perm.Basic
import ResourceGraph.Scan.Plan

/-!
# The operations of a plan

A plan is made of the operations that are accepted, each pair of service and operation as the first
descriptor with that pair declares it. If no pair is declared twice, the order of the descriptors
and of their operations does not matter.
-/
namespace ResourceGraph

namespace Plan

variable {catalog other : Catalog} {accepts : String → String → Bool}
  {ops : List PlannedOperation} {seen : List (String × String)} {op : PlannedOperation}

/-! ## The first of each name -/

/-- What stays is what has no seen name and is the first of its own. -/
theorem mem_firstOfName_iff :
    op ∈ firstOfName seen ops ↔
      op.name ∉ seen ∧ ops.find? (fun o => o.name = op.name) = some op := by
  induction ops generalizing seen with
  | nil => simp [firstOfName]
  | cons o ops ih =>
    rw [List.find?_cons]
    unfold firstOfName
    by_cases hname : o.name = op.name
    · simp only [hname, decide_true]
      split
      · next hseen =>
        rw [ih]
        simp [hseen]
      · next hseen =>
        rw [List.mem_cons, ih]
        simp [hseen, eq_comm]
    · have hne : op ≠ o := fun h => hname (h ▸ rfl)
      simp only [hname, decide_false]
      split
      · exact ih
      · rw [List.mem_cons, ih, List.mem_cons]
        simp [hne, Ne.symm hname]

theorem nodup_names_firstOfName : ((firstOfName seen ops).map (·.name)).Nodup := by
  induction ops generalizing seen with
  | nil => exact List.nodup_nil
  | cons o ops ih =>
    unfold firstOfName
    split
    · exact ih
    · refine List.nodup_cons.2 ⟨fun hmem => ?_, ih⟩
      obtain ⟨o', ho', hname⟩ := List.mem_map.1 hmem
      exact (mem_firstOfName_iff.1 ho').1 (hname ▸ List.mem_cons_self)

theorem firstOfName_eq_self (h : (ops.map (·.name)).Nodup)
    (hseen : ∀ o ∈ ops, o.name ∉ seen) : firstOfName seen ops = ops := by
  induction ops generalizing seen with
  | nil => rfl
  | cons o ops ih =>
    obtain ⟨ho, hops⟩ := List.nodup_cons.1 h
    obtain ⟨hnew, hrest⟩ := List.forall_mem_cons.1 hseen
    rw [firstOfName, if_neg hnew, ih hops]
    intro o' ho' hmem
    rcases List.mem_cons.1 hmem with heq | hmem
    · exact ho (List.mem_map.2 ⟨o', ho', heq⟩)
    · exact hrest o' ho' hmem

/-! ## What a catalog declares -/

/-- Every operation that a descriptor of the catalog declares, in order. -/
def declared (catalog : Catalog) : List PlannedOperation :=
  catalog.services.flatMap (operationsOf fun _ _ => true)

theorem operationsOf_eq_filter (d : Descriptor) :
    operationsOf accepts d =
      (operationsOf (fun _ _ => true) d).filter fun op => accepts op.service op.operation := by
  rw [operationsOf, operationsOf, List.filter_map, List.filter_true]
  rfl

theorem candidates_eq :
    candidates catalog accepts =
      firstOfName [] ((declared catalog).filter fun op => accepts op.service op.operation) := by
  rw [candidates, declared, List.filter_flatMap, funext operationsOf_eq_filter]

/-- Whether an operation is accepted hangs on its name alone. -/
theorem accepts_of_name_eq (accepts : String → String → Bool) {o : PlannedOperation}
    (h : o.name = op.name) :
    accepts o.service o.operation = accepts op.service op.operation := by
  obtain ⟨hservice, hoperation⟩ := Prod.mk.inj h
  rw [hservice, hoperation]

/-- An operation is a candidate if it is accepted and the first that is declared with its name. -/
theorem mem_candidates_iff :
    op ∈ candidates catalog accepts ↔ accepts op.service op.operation = true ∧
      (declared catalog).find? (fun o => o.name = op.name) = some op := by
  rw [candidates_eq, mem_firstOfName_iff, List.find?_filter]
  by_cases haccepts : accepts op.service op.operation = true
  · have hsame : ∀ o : PlannedOperation,
        (accepts o.service o.operation && decide (o.name = op.name)) =
          decide (o.name = op.name) := by
      intro o
      by_cases hname : o.name = op.name
      · simp [accepts_of_name_eq accepts hname, haccepts]
      · simp [hname]
    simp [hsame, haccepts]
  · have hnot : ¬ (declared catalog).find?
        (fun o => accepts o.service o.operation && decide (o.name = op.name)) = some op := by
      intro hfind
      have hop := List.find?_some hfind
      simp [haccepts] at hop
    simp [hnot, haccepts]

theorem nodup_names_candidates : ((candidates catalog accepts).map (·.name)).Nodup :=
  nodup_names_firstOfName

theorem eq_of_name_eq {o : PlannedOperation} (hop : op ∈ candidates catalog accepts)
    (ho : o ∈ candidates catalog accepts) (h : op.name = o.name) : op = o :=
  List.inj_on_of_nodup_map nodup_names_candidates hop ho h

/-- The names of the candidates are the accepted ones among those declared. -/
theorem mem_names_candidates_iff {name : String × String} :
    name ∈ (candidates catalog accepts).map (·.name) ↔
      accepts name.1 name.2 = true ∧ name ∈ (declared catalog).map (·.name) := by
  constructor
  · intro h
    obtain ⟨op, hop, rfl⟩ := List.mem_map.1 h
    obtain ⟨haccepts, hfirst⟩ := mem_candidates_iff.1 hop
    exact ⟨haccepts, List.mem_map_of_mem (List.mem_of_find?_eq_some hfirst)⟩
  · intro h
    obtain ⟨haccepts, hname⟩ := h
    obtain ⟨o, ho, rfl⟩ := List.mem_map.1 hname
    have hsome : ((declared catalog).find? fun o' => o'.name = o.name).isSome := by
      rw [List.find?_isSome]
      exact ⟨o, ho, by simp⟩
    obtain ⟨op, hop⟩ := Option.isSome_iff_exists.1 hsome
    have hname : op.name = o.name := by simpa using List.find?_some hop
    refine List.mem_map.2 ⟨op, mem_candidates_iff.2 ⟨?_, hname ▸ hop⟩, hname⟩
    rw [accepts_of_name_eq accepts hname]
    exact haccepts

end Plan

/-! ## Catalogs in another order -/

/-- The same services, each with the same operations, in another order. -/
def Catalog.Reorders (catalog other : Catalog) : Prop :=
  ∃ services, catalog.services.Perm services ∧
    List.Forall₂ (fun d e => d.operations.Perm e.operations ∧
      e = { d with operations := e.operations }) services other.services

namespace Plan

variable {catalog other : Catalog} {accepts : String → String → Bool}

theorem perm_operationsOf {d e : Descriptor} (h : d.operations.Perm e.operations)
    (heq : e = { d with operations := e.operations }) :
    (operationsOf accepts d).Perm (operationsOf accepts e) := by
  rw [heq]
  exact (h.filter _).map _

theorem perm_declared (h : catalog.Reorders other) :
    (declared catalog).Perm (declared other) := by
  obtain ⟨services, hperm, hoperations⟩ := h
  refine (hperm.flatMap_right _).trans ?_
  have happend : ∀ {xs ys : List Descriptor},
      List.Forall₂ (fun d e => d.operations.Perm e.operations ∧
        e = { d with operations := e.operations }) xs ys →
      (xs.flatMap (operationsOf fun _ _ => true)).Perm
        (ys.flatMap (operationsOf fun _ _ => true)) := by
    intro xs ys hxys
    induction hxys with
    | nil => exact .nil
    | cons hd _ ih => exact (perm_operationsOf hd.1 hd.2).append ih
  exact happend hoperations

/-- If no pair is declared twice, catalogs in another order have the same candidates. -/
theorem perm_candidates (h : catalog.Reorders other)
    (hnodup : ((declared catalog).map (·.name)).Nodup) :
    (candidates catalog accepts).Perm (candidates other accepts) := by
  have hperm := perm_declared h
  have hother : ((declared other).map (·.name)).Nodup := (hperm.map _).nodup_iff.1 hnodup
  rw [candidates_eq, candidates_eq,
    firstOfName_eq_self (hnodup.sublist (List.filter_sublist.map _)) (by simp),
    firstOfName_eq_self (hother.sublist (List.filter_sublist.map _)) (by simp)]
  exact hperm.filter _

end Plan

end ResourceGraph
