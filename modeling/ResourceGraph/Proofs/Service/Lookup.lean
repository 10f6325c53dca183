import Mathlib.Data.List.Nodup
import ResourceGraph.Proofs.Service.Compiling

/-!
# Looking services up by position

A catalog answers by searching its services from the front. A table keeps the position of every key
and segment beside a growing array instead: a key is put there once, and a segment belongs to the
first service that claims it. Both refuse the same lists and answer alike, also after the built-in
services that a configuration redefines have been dropped.
-/
namespace ResourceGraph

/-! ## The first repetition -/

theorem firstRepeated?_eq_some_iff {seen ks : List String} {k : String} :
    firstRepeated? seen ks = some k ↔ ∃ before after, ks = before ++ k :: after ∧
      before.Nodup ∧ (∀ x ∈ before, x ∉ seen) ∧ (k ∈ seen ∨ k ∈ before) := by
  induction ks generalizing seen with
  | nil => simp [firstRepeated?]
  | cons x ks ih =>
    unfold firstRepeated?
    split
    · next hseen =>
      constructor
      · rintro ⟨⟩
        exact ⟨[], ks, rfl, List.nodup_nil, by simp, .inl hseen⟩
      · rintro ⟨before, after, hsplit, -, hnew, -⟩
        cases before with
        | nil => rw [(List.cons.inj hsplit).1]
        | cons y before =>
          obtain ⟨rfl, -⟩ := List.cons.inj hsplit
          exact absurd hseen (hnew x List.mem_cons_self)
    · next hunseen =>
      rw [ih]
      constructor
      · rintro ⟨before, after, rfl, hnodup, hnew, hrepeats⟩
        have hx : x ∉ before := fun hmem => hnew x hmem List.mem_cons_self
        refine ⟨x :: before, after, rfl, List.nodup_cons.2 ⟨hx, hnodup⟩, ?_, ?_⟩
        · exact List.forall_mem_cons.2
            ⟨hunseen, fun y hy hseen => hnew y hy (List.mem_cons_of_mem _ hseen)⟩
        · rcases hrepeats with hmem | hmem
          · exact (List.mem_cons.1 hmem).elim (fun h => .inr (h ▸ List.mem_cons_self)) .inl
          · exact .inr (List.mem_cons_of_mem _ hmem)
      · rintro ⟨before, after, hsplit, hnodup, hnew, hrepeats⟩
        cases before with
        | nil =>
          obtain ⟨rfl, -⟩ := List.cons.inj hsplit
          exact absurd hrepeats (by simp [hunseen])
        | cons y before =>
          obtain ⟨rfl, rfl⟩ := List.cons.inj hsplit
          obtain ⟨hx, hbefore⟩ := List.nodup_cons.1 hnodup
          refine ⟨before, after, rfl, hbefore, fun y hy hmem => ?_, ?_⟩
          · rcases List.mem_cons.1 hmem with rfl | hseen
            · exact hx hy
            · exact hnew y (List.mem_cons_of_mem _ hy) hseen
          · rcases hrepeats with hseen | hmem
            · exact .inl (List.mem_cons_of_mem _ hseen)
            · exact (List.mem_cons.1 hmem).elim (fun h => .inl (h ▸ List.mem_cons_self)) .inr

namespace Catalog

/-- The service is the first whose key an earlier one has. -/
def FirstRepeat (services : List Descriptor) (d : Descriptor) : Prop :=
  ∃ before after, services = before ++ d :: after ∧ (before.map (·.key)).Nodup ∧
    d.key ∈ before.map (·.key)

theorem firstRepeated?_keys_iff {services : List Descriptor} {k : String} :
    firstRepeated? [] (services.map (·.key)) = some k ↔
      ∃ d, FirstRepeat services d ∧ d.key = k := by
  rw [firstRepeated?_eq_some_iff]
  constructor
  · rintro ⟨before, after, hsplit, hnodup, -, hrepeats⟩
    obtain ⟨front, rest, rfl, rfl, hrest⟩ := List.map_eq_append_iff.1 hsplit
    obtain ⟨d, back, rfl, rfl, -⟩ := List.map_eq_cons_iff.1 hrest
    exact ⟨d, ⟨front, back, rfl, hnodup, hrepeats.resolve_left List.not_mem_nil⟩, rfl⟩
  · rintro ⟨d, ⟨before, after, rfl, hnodup, hrepeats⟩, rfl⟩
    exact ⟨_, _, List.map_append .., hnodup, by simp, .inr hrepeats⟩

theorem ofList_eq_error_iff {services : List Descriptor} {e : ConfigError} :
    ofList services = .error e ↔ ∃ d, FirstRepeat services d ∧ e = .duplicateService d.key := by
  unfold ofList
  split
  · next k hk =>
    obtain ⟨d, hd, rfl⟩ := firstRepeated?_keys_iff.1 hk
    constructor
    · rintro ⟨⟩
      exact ⟨d, hd, rfl⟩
    · rintro ⟨d', hd', rfl⟩
      rw [Option.some.inj (hk.symm.trans (firstRepeated?_keys_iff.2 ⟨d', hd', rfl⟩))]
  · next hnone =>
    constructor
    · rintro ⟨⟩
    · rintro ⟨d, hd, -⟩
      cases hnone.symm.trans (firstRepeated?_keys_iff.2 ⟨d, hd, rfl⟩)

theorem FirstRepeat.not_nodup {services : List Descriptor} {d : Descriptor}
    (h : FirstRepeat services d) : ¬ (services.map (·.key)).Nodup := by
  obtain ⟨before, after, rfl, -, hmem⟩ := h
  rw [List.map_append, List.map_cons]
  exact fun hnodup => (List.nodup_append.1 hnodup).2.2 _ hmem _ List.mem_cons_self rfl

theorem ofList_services (c : Catalog) : ofList c.services = .ok c := by
  cases h : ofList c.services with
  | error e =>
    obtain ⟨d, hd, -⟩ := ofList_eq_error_iff.1 h
    exact absurd c.distinct hd.not_nodup
  | ok c' =>
    unfold ofList at h
    split at h
    · cases h
    · rw [← h]

/-- A list is refused exactly if a key repeats. -/
theorem exists_ofList_eq_error_iff {services : List Descriptor} :
    (∃ e, ofList services = .error e) ↔ ¬ (services.map (·.key)).Nodup := by
  constructor
  · rintro ⟨e, he⟩
    obtain ⟨d, hd, -⟩ := ofList_eq_error_iff.1 he
    exact hd.not_nodup
  · intro h
    refine not_exists_ok_iff.1 ?_
    rintro ⟨c, hc⟩
    unfold ofList at hc
    split at hc
    · cases hc
    · cases hc
      exact h (nodup_of_firstRepeated? ‹_›).1

/-! ## Positions beside a growing array -/

/-- Services with the position of every key, and for every segment that of the first service that
claims it. -/
structure Table where
  services : Array Descriptor
  byKey : Std.HashMap String Nat
  byArnService : Std.HashMap String Nat
  distinct : (services.toList.map (·.key)).Nodup
  byKey_eq : ∀ k, byKey[k]? = services.findIdx? (·.key = k)
  byArnService_eq : ∀ s, byArnService[s]? = services.findIdx? (·.arnService = s)

namespace Table

def empty : Table where
  services := #[]
  byKey := ∅
  byArnService := ∅
  distinct := List.nodup_nil
  byKey_eq := by simp
  byArnService_eq := by simp

variable {t : Table} {d : Descriptor}

theorem mem_byKey_iff {k : String} : k ∈ t.byKey ↔ k ∈ t.services.toList.map (·.key) := by
  rw [← Std.HashMap.isSome_getElem?_iff_mem, t.byKey_eq, Array.findIdx?_isSome,
    ← Array.any_toList, List.any_eq_true]
  simp

/-- A service with a new key goes to the end. Its segment is its own only if nobody has it. -/
def insert (t : Table) (d : Descriptor) (h : d.key ∉ t.byKey) : Table where
  services := t.services.push d
  byKey := t.byKey.insert d.key t.services.size
  byArnService := t.byArnService.insertIfNew d.arnService t.services.size
  distinct := by
    rw [Array.toList_push, List.map_append, List.map_singleton]
    exact List.nodup_append.2 ⟨t.distinct, List.nodup_singleton _, fun x hx y hy heq =>
      h (mem_byKey_iff.2 (List.mem_singleton.1 hy ▸ heq ▸ hx))⟩
  byKey_eq k := by
    rw [Std.HashMap.getElem?_insert, Array.findIdx?_push, t.byKey_eq]
    by_cases hk : d.key = k
    · have hnew : t.services.findIdx? (·.key = k) = none := by
        rw [← t.byKey_eq, ← hk]
        exact Std.HashMap.getElem?_eq_none h
      simp [hk, hnew]
    · simp [hk]
  byArnService_eq s := by
    rw [Std.HashMap.getElem?_insertIfNew, Array.findIdx?_push, t.byArnService_eq]
    by_cases hs : d.arnService = s
    · have howned : s ∈ t.byArnService ↔ (t.services.findIdx? (·.arnService = s)).isSome := by
        rw [← t.byArnService_eq, Std.HashMap.isSome_getElem?_iff_mem]
      cases hfind : t.services.findIdx? (·.arnService = s) with
      | none => simp [hs, howned, hfind]
      | some i => simp [hs, howned, hfind]
    · simp [hs]

/-- A key that is there already is refused. -/
def add (t : Table) (d : Descriptor) : Except ConfigError Table :=
  if h : d.key ∈ t.byKey then .error (.duplicateService d.key) else .ok (t.insert d h)

def ofList (services : List Descriptor) : Except ConfigError Table := services.foldlM add empty

def get? (t : Table) (key : String) : Option Descriptor :=
  t.byKey[key]?.bind fun i => t.services[i]?

def byArnService? (t : Table) (segment : String) : Option Descriptor :=
  t.byArnService[segment]?.bind fun i => t.services[i]?

def ofConfiguration (config : Configuration) : Except ConfigError Table := do
  ofList (← config.services.mapM Descriptor.ofSpec)

def builtIn : Except ConfigError Table := do
  ofList (← BuiltIn.services.mapM Descriptor.ofSpec)

/-- The tables of the configuration and of the built-in services are built first, and a third one
is built from what is left of both. -/
def withBuiltIn (config : Configuration) : Except ConfigError Table := do
  let own ← ofConfiguration config
  let basis ← builtIn
  ofList (basis.services.toList.filter (fun d => !own.byKey.contains d.key) ++
    own.services.toList)

/-! ## Tables stand for catalogs -/

/-- The catalog of the same services. -/
def catalog (t : Table) : Catalog := ⟨t.services.toList, t.distinct⟩

theorem get?_eq (t : Table) (key : String) : t.get? key = t.catalog.get? key := by
  rw [get?, t.byKey_eq, ← Array.find?_eq_bind_findIdx?_getElem?, ← Array.find?_toList]
  rfl

theorem byArnService?_eq (t : Table) (segment : String) :
    t.byArnService? segment = t.catalog.byArnService? segment := by
  rw [byArnService?, t.byArnService_eq, ← Array.find?_eq_bind_findIdx?_getElem?,
    ← Array.find?_toList]
  rfl

theorem contains_byKey (t : Table) (key : String) :
    t.byKey.contains key = (t.catalog.get? key).isSome := by
  rw [Bool.eq_iff_iff, Std.HashMap.contains_iff_mem, mem_byKey_iff, Catalog.get?, List.find?_isSome]
  simp [catalog]

/-- Adding the services one by one ends as checking their keys at once. -/
theorem map_catalog_foldlM (t : Table) (services : List Descriptor) :
    (services.foldlM add t).map catalog = Catalog.ofList (t.services.toList ++ services) := by
  induction services generalizing t with
  | nil =>
    rw [List.append_nil]
    exact (ofList_services t.catalog).symm
  | cons d services ih =>
    rw [List.foldlM_cons, add]
    split
    · next hmem =>
      refine (ofList_eq_error_iff.2 ⟨d, ⟨_, _, rfl, t.distinct, ?_⟩, rfl⟩).symm
      exact mem_byKey_iff.1 hmem
    · next hnew =>
      have hpush : (t.insert d hnew).services.toList = t.services.toList ++ [d] :=
        Array.toList_push
      refine (ih (t.insert d hnew)).trans ?_
      rw [hpush, List.append_assoc, List.singleton_append]

theorem map_catalog_ofList (services : List Descriptor) :
    (ofList services).map catalog = Catalog.ofList services :=
  map_catalog_foldlM empty services

theorem map_catalog_ofConfiguration (config : Configuration) :
    (ofConfiguration config).map catalog = Catalog.ofConfiguration config := by
  unfold ofConfiguration Catalog.ofConfiguration
  cases config.services.mapM Descriptor.ofSpec with
  | error e => rfl
  | ok own => exact map_catalog_ofList own

theorem map_catalog_builtIn : builtIn.map catalog = Catalog.builtIn := by
  unfold builtIn Catalog.builtIn
  cases BuiltIn.services.mapM Descriptor.ofSpec with
  | error e => rfl
  | ok basis => exact map_catalog_ofList basis

theorem map_catalog_withBuiltIn (config : Configuration) :
    (withBuiltIn config).map catalog = Catalog.withBuiltIn config := by
  unfold withBuiltIn Catalog.withBuiltIn
  rw [← map_catalog_ofConfiguration, ← map_catalog_builtIn]
  cases ofConfiguration config with
  | error e => rfl
  | ok own =>
    cases builtIn with
    | error e => rfl
    | ok basis =>
      have hkept : (fun d : Descriptor => !own.byKey.contains d.key) =
          fun d => (own.catalog.get? d.key).isNone := by
        funext d
        rw [contains_byKey, Option.not_isSome]
      refine (map_catalog_ofList _).trans ?_
      rw [hkept]
      rfl

end Table

/-! ## Built-in services and those of a configuration -/

/-- The built-in descriptions compile, and to a catalog. -/
theorem exists_builtIn : ∃ c, BuiltIn.services.mapM Descriptor.ofSpec = .ok c.services ∧
    builtIn = .ok c := by
  obtain ⟨basis, hbasis⟩ :=
    exists_mapM_eq_ok_iff.2 fun s hs => (compiles_builtIn (s := s) hs).exists_ofSpec
  have hdistinct : (basis.map (·.key)).Nodup := by
    rw [Descriptor.map_key_of_mapM_ofSpec hbasis]
    decide
  refine ⟨⟨basis, hdistinct⟩, hbasis, ?_⟩
  rw [builtIn, hbasis]
  exact ofList_services ⟨basis, hdistinct⟩

theorem get?_eq_some_iff {c : Catalog} {key : String} {d : Descriptor} :
    c.get? key = some d ↔ d ∈ c.services ∧ d.key = key := by
  constructor
  · intro h
    exact ⟨List.mem_of_find?_eq_some h, by simpa using List.find?_some h⟩
  · rintro ⟨hmem, rfl⟩
    have hsome : (c.get? d.key).isSome := List.find?_isSome.2 ⟨d, hmem, by simp⟩
    obtain ⟨d', hd'⟩ := Option.isSome_iff_exists.1 hsome
    have hkey : d'.key = d.key := by simpa using List.find?_some hd'
    rw [hd', List.inj_on_of_nodup_map c.distinct (List.mem_of_find?_eq_some hd') hmem hkey]

/-- What a configuration defines replaces the built-in services of the same keys. -/
theorem exists_withBuiltIn {config : Configuration} {own : List Descriptor}
    (hown : config.services.mapM Descriptor.ofSpec = .ok own)
    (hdistinct : (own.map (·.key)).Nodup) :
    ∃ basis c, BuiltIn.services.mapM Descriptor.ofSpec = .ok basis ∧
      withBuiltIn config = .ok c ∧
      c.services = basis.filter (fun d => d.key ∉ own.map (·.key)) ++ own := by
  obtain ⟨b, hbasis, hb⟩ := exists_builtIn
  have hofOwn : ofConfiguration config = .ok ⟨own, hdistinct⟩ := by
    rw [ofConfiguration, hown]
    exact ofList_services ⟨own, hdistinct⟩
  have hkept : (fun d : Descriptor => (get? ⟨own, hdistinct⟩ d.key).isNone) =
      fun d => decide (d.key ∉ own.map (·.key)) := by
    funext d
    rw [Bool.eq_iff_iff, decide_eq_true_iff, Option.isNone_iff_eq_none, get?, List.find?_eq_none]
    simp
  have hdistinct' : ((b.services.filter (fun d => d.key ∉ own.map (·.key)) ++ own).map
      (·.key)).Nodup := by
    rw [List.map_append]
    refine List.nodup_append.2 ⟨b.distinct.sublist (List.filter_sublist.map _), hdistinct, ?_⟩
    rintro x hx y hy rfl
    obtain ⟨d, hd, rfl⟩ := List.mem_map.1 hx
    exact absurd hy (by simpa using (List.mem_filter.1 hd).2)
  refine ⟨b.services, ⟨_, hdistinct'⟩, hbasis, ?_, rfl⟩
  rw [withBuiltIn, hofOwn, hb]
  show ofList (b.services.filter (fun d => (get? ⟨own, hdistinct⟩ d.key).isNone) ++ own) = _
  rw [hkept]
  exact ofList_services ⟨_, hdistinct'⟩

/-- Where the services of a configuration compile and no two have one key, the catalog is there. It
holds the built-in services that the configuration does not redefine, in load order, and then those
of the configuration, no key twice. A key finds the one service that has it, which is the
configuration's own if it defines the key, and a segment the first service that claims it. Keeping
positions beside a growing list gives the same answers, and refuses a list, as checking its keys
does, exactly if a key repeats, naming that of the first service that repeats an earlier one. -/
theorem lookups_agree :
    (∀ {config : Configuration} {own : List Descriptor},
      config.services.mapM Descriptor.ofSpec = .ok own → (own.map (·.key)).Nodup →
      ∃ basis t, BuiltIn.services.mapM Descriptor.ofSpec = .ok basis ∧
        Table.withBuiltIn config = .ok t ∧ withBuiltIn config = .ok t.catalog ∧
        t.services.toList = basis.filter (fun d => d.key ∉ own.map (·.key)) ++ own ∧
        (t.services.toList.map (·.key)).Nodup ∧
        (∀ key d, t.get? key = some d ↔ d ∈ t.services.toList ∧ d.key = key) ∧
        (∀ d ∈ own, t.get? d.key = some d) ∧
        (∀ segment, t.byArnService? segment =
          t.services.toList.find? (·.arnService = segment)) ∧
        ∀ text, t.catalog.get? text = t.get? text ∧
          t.catalog.byArnService? text = t.byArnService? text) ∧
    ∀ services : List Descriptor,
      (Table.ofList services).map Table.catalog = ofList services ∧
      ((∃ e, Table.ofList services = .error e) ↔ ¬ (services.map (·.key)).Nodup) ∧
      ∀ e, Table.ofList services = .error e ↔
        ∃ d, FirstRepeat services d ∧ e = .duplicateService d.key := by
  have hfails : ∀ services e, Table.ofList services = .error e ↔ ofList services = .error e := by
    intro services e
    rw [← Table.map_catalog_ofList, map_eq_error_iff]
  refine ⟨fun {config own} hown hdistinct => ?_, fun services => ⟨?_, ?_, fun e => ?_⟩⟩
  · obtain ⟨basis, c, hbasis, hc, hservices⟩ := exists_withBuiltIn hown hdistinct
    obtain ⟨t, ht, rfl⟩ := map_eq_ok_iff.1 ((Table.map_catalog_withBuiltIn config).trans hc)
    have hget : ∀ key d, t.get? key = some d ↔ d ∈ t.services.toList ∧ d.key = key :=
      fun key d => t.get?_eq key ▸ get?_eq_some_iff
    refine ⟨basis, t, hbasis, ht, hc, hservices, t.distinct, hget, fun d hd => ?_,
      t.byArnService?_eq, fun text => ⟨(t.get?_eq text).symm, (t.byArnService?_eq text).symm⟩⟩
    refine (hget _ _).2 ⟨?_, rfl⟩
    have hmem : d ∈ t.catalog.services := hservices ▸ List.mem_append_right _ hd
    exact hmem
  · exact Table.map_catalog_ofList services
  · simp only [hfails, exists_ofList_eq_error_iff]
  · rw [hfails, ofList_eq_error_iff]

/-- A service that only claims a segment. -/
def claiming (key segment : String) : ServiceSpec :=
  ⟨key, none, none, some segment, false, false, [], [], [], []⟩

def claimed (key segment : String) : Descriptor :=
  ⟨key, key, key, segment, false, false, [], [], [], []⟩

/-- One service claims the segment of a built-in one, another redefines a built-in one. -/
def redefining : Configuration :=
  { Configuration.standard with services := [claiming "depot" "lambda", claiming "s3" "storage"] }

theorem lookups_agree_redefining :
    redefining.services.mapM Descriptor.ofSpec =
      .ok [claimed "depot" "lambda", claimed "s3" "storage"] ∧
    ∃ t, Table.withBuiltIn redefining = .ok t ∧
      t.services.toList.map (·.key) = ["iam", "lambda", "ecs", "dynamodb", "sns", "sqs",
        "cloudfront", "route53", "elbv2", "depot", "s3"] ∧
      t.get? "s3" = some (claimed "s3" "storage") := by
  have hown : redefining.services.mapM Descriptor.ofSpec =
      .ok [claimed "depot" "lambda", claimed "s3" "storage"] := by
    cbv
  obtain ⟨basis, t, hbasis, ht, -, hservices, -, -, hget, -⟩ :=
    lookups_agree.1 hown (by decide)
  refine ⟨hown, t, ht, ?_, hget (claimed "s3" "storage") (by simp)⟩
  have hkept : (basis.filter (fun d => d.key ∉ ["depot", "s3"])).map (·.key) =
      (BuiltIn.services.map (·.key)).filter (· ∉ ["depot", "s3"]) := by
    rw [← Descriptor.map_key_of_mapM_ofSpec hbasis, List.filter_map]
    rfl
  have hkeys : [claimed "depot" "lambda", claimed "s3" "storage"].map (·.key) = ["depot", "s3"] :=
    rfl
  rw [hservices, List.map_append, hkeys, hkept]
  decide

end Catalog

end ResourceGraph
