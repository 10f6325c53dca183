import Mathlib.Data.List.Dedup
import ResourceGraph.Graph.Assembly
import ResourceGraph.Proofs.Record.Content
import ResourceGraph.Proofs.Record.ScopeUnion

/-!
# A store as a log

Under each key a store holds what was written there, one write after the other, and what it is asked
for is read off these sequences. So writes to different keys may come in any order: the store they
leave is the same, and with it every read, the manifest and the assembled graph.
-/
namespace ResourceGraph.Store

variable {s other : Store} {writes others : List (Key × List Record)} {key : Key}
  {p : String × String}

/-- What is written under a key, in the order of the writes. -/
def logged (writes : List (Key × List Record)) (key : Key) : List Record :=
  (writes.filter (·.1 = key)).flatMap (·.2)

/-- The keys under which something is written. Writing nothing is not writing. -/
def loggedKeys (writes : List (Key × List Record)) : List Key :=
  ((writes.filter (!·.2.isEmpty)).map (·.1)).dedup

/-! ## The store after some writes -/

theorem logged_cons {w : Key × List Record} :
    logged (w :: writes) key = (if key = w.1 then w.2 else []) ++ logged writes key := by
  by_cases h : key = w.1
  · simp [logged, h]
  · simp [logged, h, Ne.symm h]

theorem mem_loggedKeys_iff : key ∈ loggedKeys writes ↔ ∃ w ∈ writes, w.1 = key ∧ w.2 ≠ [] := by
  simp only [loggedKeys, List.mem_dedup, List.mem_map, List.mem_filter, Bool.not_eq_true',
    List.isEmpty_eq_false_iff]
  exact exists_congr fun w => by rw [and_assoc, and_comm (a := w.2 ≠ [])]

theorem mem_loggedKeys_iff_logged_ne_nil : key ∈ loggedKeys writes ↔ logged writes key ≠ [] := by
  rw [mem_loggedKeys_iff, Ne, logged, List.flatMap_eq_nil_iff]
  simp

theorem read_foldl_write :
    (writes.foldl (fun s w => s.write w.1 w.2) s).read key = s.read key ++ logged writes key := by
  induction writes generalizing s with
  | nil => simp [logged]
  | cons w writes ih => rw [List.foldl_cons, ih, read_write, logged_cons, List.append_assoc]

theorem read_ofWrites : (ofWrites writes).read key = logged writes key :=
  read_foldl_write (s := .empty)

theorem recordCount_foldl_write : (writes.foldl (fun s w => s.write w.1 w.2) s).recordCount =
    s.recordCount + (writes.flatMap (·.2)).length := by
  induction writes generalizing s with
  | nil => rfl
  | cons w writes ih =>
    rw [List.foldl_cons, ih, recordCount_write, List.flatMap_cons, List.length_append,
      Nat.add_assoc]

/-! ## What is read off the sequences -/

/-- A key is there if it has a record. -/
theorem mem_keys_iff_read_ne_nil : key ∈ s.entries.map (·.1) ↔ s.read key ≠ [] := by
  rw [read_eq_lookup]
  cases hlookup : s.entries.lookup key with
  | none =>
    rw [List.lookup_eq_none_iff] at hlookup
    simpa using fun records hmem => by simpa using hlookup _ hmem
  | some records =>
    have hmem := Ordered.mem_of_lookup hlookup
    exact iff_of_true (List.mem_map_of_mem hmem) (s.written _ hmem)

theorem mem_scopes_iff_read_ne_nil : p ∈ s.scopes ↔ ∃ key, key.place = p ∧ s.read key ≠ [] := by
  rw [mem_scopes_iff]
  simp only [← mem_keys_iff_read_ne_nil, List.mem_map]
  constructor
  · rintro ⟨e, he, hplace⟩
    exact ⟨e.1, hplace, e, he, rfl⟩
  · rintro ⟨_, hplace, e, he, rfl⟩
    exact ⟨e, he, hplace⟩

/-- A store is told by the records under its keys. -/
theorem eq_of_read_eq (h : ∀ key, s.read key = other.read key) : s = other := by
  have hentries : s.entries = other.entries :=
    Ordered.eq_of_lookup_eq s.ascending other.ascending fun key =>
      lookup_eq_of_getD_eq s.written other.written (h key)
  cases s
  cases other
  simpa using hentries

/-- What a store says of the writes that made it. -/
structure Logs (s : Store) (writes : List (Key × List Record)) : Prop where
  atPlace : ∀ account region service operation, s.readScoped account region service operation =
    logged writes ⟨account, region, service, operation⟩
  /-- The places that have records of the operation are read in ascending order. -/
  everywhere : ∀ service operation, ∃ places : List (String × String),
    places.Pairwise PlaceBefore ∧
    (∀ p, p ∈ places ↔ logged writes ⟨p.1, p.2, service, operation⟩ ≠ []) ∧
    s.readGlobal service operation =
      places.flatMap fun p => logged writes ⟨p.1, p.2, service, operation⟩
  ascendingScopes : s.scopes.Pairwise PlaceBefore
  scopes : ∀ p, p ∈ s.scopes ↔ ∃ w ∈ writes, w.1.place = p ∧ w.2 ≠ []
  keyCount : s.keyCount = (loggedKeys writes).length
  recordCount : s.recordCount = (writes.flatMap (·.2)).length

/-- Places without records add nothing to a read everywhere. -/
theorem exists_places_of_read (service operation : String) :
    ∃ places : List (String × String), places.Pairwise PlaceBefore ∧
      (∀ p, p ∈ places ↔ s.read ⟨p.1, p.2, service, operation⟩ ≠ []) ∧
      s.readGlobal service operation =
        places.flatMap fun p => s.read ⟨p.1, p.2, service, operation⟩ := by
  have hread : ∀ p : String × String,
      s.readScoped p.1 p.2 service operation = s.read ⟨p.1, p.2, service, operation⟩ :=
    fun _ => rfl
  refine ⟨s.scopes.filter fun p => !(s.read ⟨p.1, p.2, service, operation⟩).isEmpty,
    s.ascending_scopes.filter _, fun p => ?_, ?_⟩
  · rw [List.mem_filter, Bool.not_eq_true', List.isEmpty_eq_false_iff, and_iff_right_iff_imp]
    exact fun h => mem_scopes_iff_read_ne_nil.2 ⟨_, rfl, h⟩
  · simp only [readGlobal_eq_flatMap_scopes, hread]
    rw [List.flatMap_def, ← List.flatten_filter_not_isEmpty, List.filter_map, ← List.flatMap_def]
    rfl

theorem logs_ofWrites (writes : List (Key × List Record)) : (ofWrites writes).Logs writes where
  atPlace account region service operation :=
    show (ofWrites writes).read ⟨account, region, service, operation⟩ = _ from read_ofWrites
  everywhere service operation := by
    simpa only [read_ofWrites] using
      exists_places_of_read (s := ofWrites writes) service operation
  ascendingScopes := ascending_scopes _
  scopes p := by
    rw [mem_scopes_iff_read_ne_nil]
    simp only [read_ofWrites, ← mem_loggedKeys_iff_logged_ne_nil, mem_loggedKeys_iff]
    constructor
    · rintro ⟨_, hplace, w, hw, rfl, hwritten⟩
      exact ⟨w, hw, hplace, hwritten⟩
    · rintro ⟨w, hw, hplace, hwritten⟩
      exact ⟨w.1, hplace, w, hw, rfl, hwritten⟩
  keyCount := by
    have hperm : ((ofWrites writes).entries.map (·.1)).Perm (loggedKeys writes) := by
      have hkeys : (loggedKeys writes).Nodup := List.nodup_dedup _
      refine (List.perm_ext_iff_of_nodup (ofWrites writes).ascending.nodup hkeys).2 fun key => ?_
      rw [mem_keys_iff_read_ne_nil, read_ofWrites, mem_loggedKeys_iff_logged_ne_nil]
    rw [← hperm.length_eq, List.length_map]
    rfl
  recordCount := (recordCount_foldl_write (s := .empty)).trans (Nat.zero_add _)

/-! ## Writes in another order -/

/-- Writes under different keys may change places. -/
theorem logged_swap {before after : List (Key × List Record)} {v w : Key × List Record}
    (h : v.1 ≠ w.1) :
    logged (before ++ v :: w :: after) key = logged (before ++ w :: v :: after) key := by
  induction before with
  | nil =>
    rw [List.nil_append, List.nil_append, logged_cons, logged_cons, logged_cons, logged_cons]
    by_cases hv : key = v.1
    · have hw : key ≠ w.1 := hv.trans_ne h
      rw [if_neg hw, List.nil_append, List.nil_append]
    · rw [if_neg hv, List.nil_append, List.nil_append]
  | cons u before ih => rw [List.cons_append, List.cons_append, logged_cons, logged_cons, ih]

theorem ofWrites_congr (h : ∀ key, logged others key = logged writes key) :
    ofWrites others = ofWrites writes :=
  eq_of_read_eq fun key => by rw [read_ofWrites, read_ofWrites, h]

/-- A store gives back what was written under each key, in the order of the writes, and counts and
lists what is there. So writes that agree key by key leave the same store, of which every read, the
manifest and the assembled graph are the same. -/
theorem ofWrites_logs_and_forgets_order (writes : List (Key × List Record)) :
    (ofWrites writes).Logs writes ∧
    ∀ others, (∀ key, logged others key = logged writes key) →
      ofWrites others = ofWrites writes ∧
      (∀ defaultRegion, Manifest.ofSource (.ofStore (ofWrites others)) defaultRegion =
        Manifest.ofSource (.ofStore (ofWrites writes)) defaultRegion) ∧
      ∀ (a : Assembler) (manifest : Manifest),
        { a with source := .ofStore (ofWrites others) }.assemble manifest =
          { a with source := .ofStore (ofWrites writes) }.assemble manifest := by
  refine ⟨logs_ofWrites writes, fun others h => ?_⟩
  have hstore : ofWrites others = ofWrites writes := ofWrites_congr h
  refine ⟨hstore, fun defaultRegion => ?_, fun a manifest => ?_⟩
  · rw [hstore]
  · rw [hstore]

/-- Queues of one place found in two lots, with those of another place and a lot of none between. -/
def mixedQueues : List (Key × List Record) := [
  Source.queues "1" "eu" [.str "a"], (⟨"3", "eu", "SQS", "ListQueues"⟩, []),
  Source.queues "2" "eu" [.str "c"], Source.queues "1" "eu" [.str "b"]]

/-- The same with the other place first. -/
def sortedQueues : List (Key × List Record) := [
  Source.queues "2" "eu" [.str "c"], Source.queues "1" "eu" [.str "a"],
  Source.queues "1" "eu" [.str "b"]]

theorem ofWrites_mixedQueues : (∀ key, logged sortedQueues key = logged mixedQueues key) ∧
    ofWrites sortedQueues = ofWrites mixedQueues ∧
    (ofWrites mixedQueues).readScoped "1" "eu" "SQS" "ListQueues" =
      [⟨⟨"1", "eu", 0⟩, [], .obj [("QueueUrls", .arr [.str "a"])]⟩,
        ⟨⟨"1", "eu", 0⟩, [], .obj [("QueueUrls", .arr [.str "b"])]⟩] ∧
    (∀ p, p ∈ (ofWrites mixedQueues).scopes ↔ p = ("1", "eu") ∨ p = ("2", "eu")) ∧
    (ofWrites mixedQueues).keyCount = 2 ∧ (ofWrites mixedQueues).recordCount = 3 := by
  have hsame : ∀ key, logged sortedQueues key = logged mixedQueues key := by
    intro key
    have hswap : logged ([] ++ Source.queues "2" "eu" [.str "c"] ::
        Source.queues "1" "eu" [.str "a"] :: [Source.queues "1" "eu" [.str "b"]]) key =
        logged ([] ++ Source.queues "1" "eu" [.str "a"] ::
          Source.queues "2" "eu" [.str "c"] :: [Source.queues "1" "eu" [.str "b"]]) key :=
      logged_swap (by decide)
    refine hswap.trans ?_
    simp only [mixedQueues, List.nil_append, logged_cons, ite_self]
  obtain ⟨hlogs, hothers⟩ := ofWrites_logs_and_forgets_order mixedQueues
  refine ⟨hsame, (hothers sortedQueues hsame).1, hlogs.atPlace .., fun p => ?_, ?_, ?_⟩
  · rw [hlogs.scopes]
    simp [mixedQueues, Source.queues, Key.place, eq_comm, or_comm]
  · rw [hlogs.keyCount]
    decide
  · rw [hlogs.recordCount]
    rfl

end ResourceGraph.Store
