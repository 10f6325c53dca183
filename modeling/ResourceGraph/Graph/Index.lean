import ResourceGraph.Ordered

/-! The node ids known of each service, both in ascending order. -/
namespace ResourceGraph

structure NodeIndex where
  entries : List (String × List String)
  ascending : Ordered.Ascending (entries.map (·.1))
  idsAscending : ∀ e ∈ entries, Ordered.Ascending e.2

namespace NodeIndex

def empty : NodeIndex := ⟨[], .nil, nofun⟩

def ids? (index : NodeIndex) (service : String) : Option (List String) :=
  index.entries.lookup service

def contains (index : NodeIndex) (service id : String) : Bool :=
  (index.ids? service).any (·.contains id)

/-- Adds ids to those of a service. The service is known even if there are none. -/
def insertAll (index : NodeIndex) (service : String) (ids : List String) : NodeIndex where
  entries :=
    Ordered.adjust service (fun before => Ordered.insertAll ids (before.getD [])) index.entries
  ascending := Ordered.ascending_adjust index.ascending
  idsAscending := by
    refine Ordered.forall_adjust (fun before hbefore => Ordered.ascending_insertAll ?_)
      index.idsAscending
    cases before with
    | none => exact .nil
    | some set => exact hbefore set rfl

def insert (index : NodeIndex) (service id : String) : NodeIndex := index.insertAll service [id]

/-- Inserts an id and says whether it is new. -/
def insertNew (index : NodeIndex) (service id : String) : Bool × NodeIndex :=
  (!index.contains service id, index.insert service id)

/-- Everything that either index holds. -/
def merge (index other : NodeIndex) : NodeIndex :=
  other.entries.foldl (fun index (service, ids) => index.insertAll service ids) index

def services (index : NodeIndex) : List String := index.entries.map (·.1)

def size (index : NodeIndex) : Nat := (index.entries.flatMap (·.2)).length

def isEmpty (index : NodeIndex) : Bool := index.entries.all (·.2.isEmpty)

/-- The ids of a service, in ascending order and each once; none if it is not known. -/
theorem ascending_ids (index : NodeIndex) (service : String) :
    Ordered.Ascending ((index.ids? service).getD []) := by
  unfold ids?
  cases h : index.entries.lookup service with
  | none => exact .nil
  | some ids => exact index.idsAscending _ (Ordered.mem_of_lookup h)

end NodeIndex

end ResourceGraph
