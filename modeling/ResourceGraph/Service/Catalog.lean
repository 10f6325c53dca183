import ResourceGraph.Service.BuiltIn

/-! Catalogs: services with pairwise distinct keys, in the order in which they were loaded. -/
namespace ResourceGraph

/-- The first text that occurs before, in front of the list or in it. -/
def firstRepeated? (seen : List String) : List String → Option String
  | [] => none
  | k :: ks => if k ∈ seen then some k else firstRepeated? (k :: seen) ks

theorem nodup_of_firstRepeated? {seen ks : List String} (h : firstRepeated? seen ks = none) :
    ks.Nodup ∧ ∀ k ∈ ks, k ∉ seen := by
  induction ks generalizing seen with
  | nil => simp
  | cons k ks ih =>
    simp only [firstRepeated?] at h
    split at h
    · simp at h
    · next hk =>
      obtain ⟨hnodup, hnew⟩ := ih h
      refine ⟨List.nodup_cons.2 ⟨fun hmem => ?_, hnodup⟩, fun x hx hseen => ?_⟩
      · exact hnew k hmem (List.mem_cons_self ..)
      · rcases List.mem_cons.1 hx with rfl | hx
        · exact hk hseen
        · exact hnew x hx (List.mem_cons_of_mem _ hseen)

structure Catalog where
  services : List Descriptor
  distinct : (services.map (·.key)).Nodup

namespace Catalog

/-- A key that repeats an earlier one is refused. -/
def ofList (services : List Descriptor) : Except ConfigError Catalog :=
  match h : firstRepeated? [] (services.map (·.key)) with
  | some key => .error (.duplicateService key)
  | none => .ok ⟨services, (nodup_of_firstRepeated? h).1⟩

def get? (c : Catalog) (key : String) : Option Descriptor := c.services.find? (·.key = key)

/-- The service that owns a segment of resource names: the first that claims it. -/
def byArnService? (c : Catalog) (segment : String) : Option Descriptor :=
  c.services.find? (·.arnService = segment)

def size (c : Catalog) : Nat := c.services.length

def isEmpty (c : Catalog) : Bool := c.services.isEmpty

/-- The services of the configuration alone. -/
def ofConfiguration (config : Configuration) : Except ConfigError Catalog := do
  ofList (← config.services.mapM Descriptor.ofSpec)

def builtIn : Except ConfigError Catalog := do
  ofList (← BuiltIn.services.mapM Descriptor.ofSpec)

/-- The built-in services that the configuration does not redefine, and then its own. -/
def withBuiltIn (config : Configuration) : Except ConfigError Catalog := do
  let own ← ofConfiguration config
  let basis ← builtIn
  ofList (basis.services.filter (fun d => (own.get? d.key).isNone) ++ own.services)

/-- What an operation of a service is called and reads, if the catalog has it. -/
def operation? (c : Catalog) (key operation : String) : Option OperationDescriptor :=
  (c.get? key).bind fun d => d.operations.find? (·.operation = operation)

end Catalog

end ResourceGraph
