import ResourceGraph.Ordered
import ResourceGraph.Record.Basic

/-!
The record store: for each key the sequence of records written to it, in order. Reads over several
keys go by ascending key.
-/
namespace ResourceGraph

structure Store where
  entries : List (Key × List Record)
  ascending : Ordered.Ascending (entries.map (·.1))
  written : ∀ e ∈ entries, e.2 ≠ []

namespace Store

def empty : Store := ⟨[], .nil, nofun⟩

/-- Appends records to the sequence of a key. Writing none leaves no trace. -/
def write (s : Store) (key : Key) (records : List Record) : Store :=
  if h : records = [] then s
  else {
    entries := Ordered.adjust key (fun before => before.getD [] ++ records) s.entries
    ascending := Ordered.ascending_adjust s.ascending
    written := by
      refine Ordered.forall_adjust (P := (· ≠ [])) (fun before _ => ?_) s.written
      exact List.append_ne_nil_of_right_ne_nil _ h }

/-- The store after a sequence of writes, the first one first. -/
def ofWrites (writes : List (Key × List Record)) : Store :=
  writes.foldl (fun s (key, records) => s.write key records) .empty

def readScoped (s : Store) (account region service operation : String) : List Record :=
  (s.entries.lookup ⟨account, region, service, operation⟩).getD []

/-- The records of one operation in every account and region. -/
def readGlobal (s : Store) (service operation : String) : List Record :=
  (s.entries.filter fun (k, _) => k.service = service && k.operation = operation).flatMap (·.2)

/-- Neighbouring repetitions are listed once. -/
def dedup : List (String × String) → List (String × String)
  | a :: b :: rest => if a = b then dedup (b :: rest) else a :: dedup (b :: rest)
  | short => short

/-- The accounts and regions that hold records. -/
def scopes (s : Store) : List (String × String) :=
  dedup (s.entries.map fun (k, _) => (k.account, k.region))

def keyCount (s : Store) : Nat := s.entries.length

def recordCount (s : Store) : Nat := (s.entries.flatMap (·.2)).length

/-- Every sequence under the display of its key. A key that displays as an earlier one takes its
place. -/
def snapshot (s : Store) : Fields :=
  Fields.ofList (s.entries.map fun (k, records) => (k.display, .arr (records.map Record.toJson)))

end Store

end ResourceGraph
