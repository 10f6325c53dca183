import Mathlib.Data.List.Forall2
import ResourceGraph.Generator.Alias
import ResourceGraph.Proofs.Generator.DnsName
import ResourceGraph.Proofs.Graph.RoleEdges
import ResourceGraph.Proofs.Json.Fields

/-!
# Aliases and the spelling of names

An alias leads to the distribution or load balancer that has its domain name, however the name is
spelt on either side, or to the bucket that is named like the record. The label for both address
families is taken off once before load balancers are looked for, so that such an alias leads to one
with another name. Names with blanks are left out of what is claimed of spellings, names of nothing
but dots are not.
-/
namespace ResourceGraph

/-! ## Words in a text -/

namespace Text

variable {word cs : List Char}

theorem occursIn_iff : occursIn word cs = true ↔ word <:+: cs := by
  induction cs with
  | nil => simp [occursIn]
  | cons c cs ih =>
    rw [occursIn, Bool.or_eq_true, ih, List.isPrefixOf_iff_prefix, List.infix_cons_iff]

end Text

/-! ## Names in fields -/

/-- Lists that go along with each other give the same where their elements do. -/
theorem map_eq_of_forall₂ {α β : Type} {R : α → α → Prop} {p : α → Prop} {f : α → β}
    {xs ys : List α} (h : List.Forall₂ R xs ys) (hp : ∀ x ∈ xs, p x)
    (hf : ∀ x y, R x y → p x → f y = f x) : ys.map f = xs.map f := by
  induction h with
  | nil => rfl
  | cons hx hxs ih =>
    obtain ⟨hpx, hpxs⟩ := List.forall_mem_cons.1 hp
    rw [List.map_cons, List.map_cons, hf _ _ hx hpx, ih hpxs]

variable {item other : Json} {items others : List Json} {field s t : String}

/-- The normal form of the name in a field. It is empty if there is none. -/
def Json.dnsField (item : Json) (field : String) : String :=
  (item.textField? field).elim "" normalizeDns

theorem Json.textField?_eq : item.textField? field = (item.text? field).filter (· ≠ "") := rfl

theorem Json.dnsField_eq : item.dnsField field = (item.text? field).elim "" normalizeDns := by
  rw [dnsField, textField?_eq]
  cases item.text? field with
  | none => rfl
  | some s =>
    rw [Option.filter_some, Option.elim_some]
    by_cases hs : s = ""
    · simp [hs, normalizeDns_empty]
    · simp [hs]

/-- The items differ in how the name in one field is spelt. -/
structure Respelt (field : String) (item other : Json) : Prop where
  elsewhere : ∀ name, name ≠ field → other.field? name = item.field? name
  here : other.field? field = item.field? field ∨ ∃ s t, item.field? field = some (.str s) ∧
    other.field? field = some (.str t) ∧ SpeltAlike s t

/-- The one item has the name of a load balancer and the other the same name with the label for both
address families in front. -/
structure DualStacked (item other : Json) : Prop where
  elsewhere : ∀ name, name ≠ "dnsName" → other.field? name = item.field? name
  here : ∃ s, item.field? "dnsName" = some (.str s) ∧
    other.field? "dnsName" = some (.str ("dualstack." ++ s)) ∧
    ".elb.amazonaws.com".toList <:+ (normalizeDns s).toList ∧
    ¬ "s3-website".toList <:+: (normalizeDns s).toList ∧
    ¬ "dualstack.".toList <+: (normalizeDns s).toList

/-- The name in a field, if there is one, has no blanks. -/
def NameUnspaced (field : String) (item : Json) : Prop :=
  ∀ s ∈ item.text? field, Unspaced s

instance : Decidable (NameUnspaced field item) :=
  inferInstanceAs (Decidable (∀ s ∈ item.text? field, Unspaced s))

theorem textField?_eq_of_field?_eq {name : String} (h : other.field? name = item.field? name) :
    other.textField? name = item.textField? name := by
  rw [Json.textField?, Json.textField?, h]

theorem Json.text?_eq_of_field?_eq (h : item.field? field = some (.str s)) :
    item.text? field = some s := by
  rw [text?, h]
  rfl

theorem Respelt.dnsField_eq (h : Respelt field item other) (hs : NameUnspaced field item) :
    other.dnsField field = item.dnsField field := by
  obtain hsame | ⟨s, t, hitem, hother, halike⟩ := h.here
  · rw [Json.dnsField, Json.dnsField, textField?_eq_of_field?_eq hsame]
  · have hitem := Json.text?_eq_of_field?_eq hitem
    rw [Json.dnsField_eq, Json.dnsField_eq, hitem, Json.text?_eq_of_field?_eq hother,
      Option.elim_some, Option.elim_some, halike.normalizeDns_eq (hs s hitem)]

namespace AliasSelectors

variable {distributions loadBalancers distributions' loadBalancers' : List (String × String)}
  {buckets : List String} {name domain target : String} {record : Json}

/-! ## Ids by name -/

/-- Of an item only the normal form of its name and its id count. -/
def row (field : String) (item : Json) : String × Option String :=
  (item.dnsField field, item.textField? "id")

theorem lookup_filterMap {α ν : Type} {f : α → Option (String × ν)} {xs : List α} {key : String} :
    (xs.filterMap f).lookup key =
      xs.findSome? fun x => (f x).bind fun p => if p.1 = key then some p.2 else none := by
  induction xs with
  | nil => rfl
  | cons x xs ih =>
    rw [List.filterMap_cons, List.findSome?_cons]
    cases f x with
    | none => simpa using ih
    | some p =>
      obtain ⟨k, v⟩ := p
      by_cases h : k = key
      · simp [h]
      · simp [List.lookup_cons, beq_false_of_ne (Ne.symm h), h, ih]

/-- What is found under a name is the last id that goes with it. -/
def idFor (domain : String) (r : String × Option String) : Option String :=
  if r.1 = domain then r.2 else none

theorem lookup_idsByDomain (h : domain ≠ "") : (idsByDomain items field).lookup domain =
    (items.map (row field)).reverse.findSome? (idFor domain) := by
  rw [idsByDomain, ← List.filterMap_reverse, lookup_filterMap, ← List.map_reverse,
    List.findSome?_map]
  congr 1
  funext item
  rw [Function.comp_apply, row, idFor, Json.dnsField]
  cases item.textField? field with
  | none => simp [h.symm]
  | some s =>
    rw [Option.elim_some]
    by_cases hs : normalizeDns s = domain
    · cases item.textField? "id" <;> simp [hs]
    · cases item.textField? "id" <;> simp [hs]

/-- The tables agree, however the names are spelt. -/
theorem lookup_idsByDomain_of_respelt (h : List.Forall₂ (Respelt field) items others)
    (hfield : field ≠ "id") (hs : ∀ item ∈ items, NameUnspaced field item) (hdomain : domain ≠ "") :
    (idsByDomain others field).lookup domain = (idsByDomain items field).lookup domain := by
  have hrows : others.map (row field) = items.map (row field) := by
    refine map_eq_of_forall₂ h hs fun item other halike hitem => ?_
    rw [row, row, halike.dnsField_eq hitem,
      textField?_eq_of_field?_eq (halike.elsewhere "id" hfield.symm)]
  rw [lookup_idsByDomain hdomain, lookup_idsByDomain hdomain, hrows]

theorem mem_idsByDomain_iff : (domain, target) ∈ idsByDomain items field ↔ ∃ item ∈ items,
    ∃ n, item.textField? field = some n ∧ item.textField? "id" = some target ∧
      normalizeDns n = domain := by
  simp only [idsByDomain, List.mem_reverse, List.mem_filterMap, bind, Option.bind_eq_some_iff, pure,
    Option.some.injEq, Prod.mk.injEq]
  refine exists_congr fun item => and_congr_right fun _ => ?_
  constructor
  · intro h
    obtain ⟨n, hn, id, hid, rfl, rfl⟩ := h
    exact ⟨n, hn, hid, rfl⟩
  · intro h
    obtain ⟨n, hn, hid, rfl⟩ := h
    exact ⟨n, hn, target, hid, rfl, rfl⟩

/-! ## The label for both address families -/

theorem withoutDualStack_append : withoutDualStack ("dualstack." ++ domain) = domain := by
  simp [withoutDualStack]

theorem withoutDualStack_of_not_prefix (h : ¬ "dualstack.".toList <+: domain.toList) :
    withoutDualStack domain = domain := by
  rw [← List.isPrefixOf_iff_prefix] at h
  exact if_neg h

/-- Nothing but the label is lost. -/
theorem withoutDualStack_ne_empty (h : ".elb.amazonaws.com".toList <:+ domain.toList) :
    withoutDualStack domain ≠ "" := by
  unfold withoutDualStack
  intro hempty
  dsimp only at hempty
  split at hempty
  · next hlabel =>
    obtain ⟨rest, hrest⟩ := List.isPrefixOf_iff_prefix.1 hlabel
    rw [← hrest, List.drop_left] at hempty
    have hnil : rest = [] := by simpa using congrArg String.toList hempty
    rw [← hrest, hnil] at h
    exact absurd h (by decide)
  · rw [hempty] at h
    exact absurd h (by decide)

theorem normalizeDns_dualStack (hs : Unspaced s)
    (hsuffix : ".elb.amazonaws.com".toList <:+ (normalizeDns s).toList) :
    normalizeDns ("dualstack." ++ s) = "dualstack." ++ normalizeDns s := by
  apply String.toList_injective
  have hlabel : Unspaced "dualstack." := by decide
  have hwhole : Unspaced ("dualstack." ++ s) := by
    intro c hc
    rw [String.toList_append, List.mem_append] at hc
    obtain hc | hc := hc
    · exact hlabel c hc
    · exact hs c hc
  have hkept : Text.dropEndWhile (· = '.') s.toList ≠ [] := by
    intro hnil
    rw [hs.toList_normalizeDns, hnil] at hsuffix
    exact absurd hsuffix (by decide)
  rw [hwhole.toList_normalizeDns, String.toList_append, String.toList_append,
    Text.dropEndWhile_append_of_ne_nil hkept, hs.toList_normalizeDns, List.map_append]
  rfl

/-! ## Targets -/

theorem target?_of_balancer (hsuffix : ".elb.amazonaws.com".toList <:+ domain.toList)
    (hplain : ¬ "s3-website".toList <:+: domain.toList) :
    target? distributions loadBalancers buckets name domain =
      loadBalancers.lookup (withoutDualStack domain) := by
  have hcloud : ¬ ".cloudfront.net".toList <:+ domain.toList := fun h =>
    absurd (List.suffix_of_suffix_length_le h hsuffix (by decide)) (by decide)
  rw [← List.isSuffixOf_iff_suffix] at hsuffix hcloud
  rw [← Text.occursIn_iff] at hplain
  simp only [target?]
  rw [if_neg hcloud, if_neg hplain, if_pos hsuffix]

/-- The empty name leads nowhere, so what is found under it does not count. -/
theorem target?_congr (hd : ∀ k, k ≠ "" → distributions.lookup k = distributions'.lookup k)
    (hl : ∀ k, k ≠ "" → loadBalancers.lookup k = loadBalancers'.lookup k) :
    target? distributions loadBalancers buckets name domain =
      target? distributions' loadBalancers' buckets name domain := by
  simp only [target?]
  split
  · next hsuffix =>
    refine hd _ fun hempty => ?_
    rw [hempty] at hsuffix
    exact absurd hsuffix (by decide)
  split
  · rfl
  split
  · next hsuffix => exact hl _ (withoutDualStack_ne_empty (List.isSuffixOf_iff_suffix.1 hsuffix))
  · rfl

theorem target?_empty : target? distributions loadBalancers buckets name "" = none := by
  rfl

theorem target?_dualStack (hsuffix : ".elb.amazonaws.com".toList <:+ domain.toList)
    (hplain : ¬ "s3-website".toList <:+: domain.toList)
    (hlabel : ¬ "dualstack.".toList <+: domain.toList) :
    target? distributions loadBalancers buckets name ("dualstack." ++ domain) =
      target? distributions loadBalancers buckets name domain := by
  have hsuffix' : ".elb.amazonaws.com".toList <:+ ("dualstack." ++ domain).toList := by
    rw [String.toList_append]
    exact hsuffix.trans (List.suffix_append _ _)
  have hplain' : ¬ "s3-website".toList <:+: ("dualstack." ++ domain).toList := by
    simp at hplain
    simp [List.infix_cons_iff, hplain]
  rw [target?_of_balancer hsuffix hplain, target?_of_balancer hsuffix' hplain',
    withoutDualStack_append, withoutDualStack_of_not_prefix hlabel]

/-! ## The edge of a record -/

theorem edge?_eq : edge? distributions loadBalancers buckets record =
    (record.textField? "name").bind fun name =>
      (target? distributions loadBalancers buckets name (record.dnsField "dnsName")).map
        fun target => Edge.between name target "alias" := by
  simp only [edge?, bind, pure, Json.dnsField]
  cases record.textField? "name" with
  | none => rfl
  | some name =>
    rw [Option.bind_some, Option.bind_some]
    cases record.textField? "dnsName" with
    | none => rw [Option.elim_none, target?_empty, Option.bind_none, Option.map_none]
    | some domain => rw [Option.elim_some, Option.bind_some, Option.map_eq_bind, Function.comp_def]

end AliasSelectors

/-- What the selectors of aliases find. -/
structure AliasItems where
  records : List Json
  distributions : List Json
  buckets : List Json
  loadBalancers : List Json

namespace AliasItems

open AliasSelectors

variable {items other : AliasItems} {record record' : Json} {edge : Edge}

def edge? (items : AliasItems) (record : Json) : Option Edge :=
  AliasSelectors.edge? (idsByDomain items.distributions "domainName")
    (idsByDomain items.loadBalancers "dnsName") (items.buckets.filterMap Json.str?) record

/-- No name of a record, a distribution or a load balancer has a blank. -/
structure Unspaced (items : AliasItems) : Prop where
  records : ∀ record ∈ items.records, NameUnspaced "dnsName" record
  distributions : ∀ distribution ∈ items.distributions, NameUnspaced "domainName" distribution
  loadBalancers : ∀ loadBalancer ∈ items.loadBalancers, NameUnspaced "dnsName" loadBalancer

/-- The same items with other spellings of their names. -/
structure Respells (items other : AliasItems) : Prop where
  records : List.Forall₂ (fun record record' => Respelt "dnsName" record record' ∨
    DualStacked record record') items.records other.records
  distributions : List.Forall₂ (Respelt "domainName") items.distributions other.distributions
  buckets : other.buckets = items.buckets
  loadBalancers : List.Forall₂ (Respelt "dnsName") items.loadBalancers other.loadBalancers

theorem edge?_of_respelt (h : Respelt "dnsName" record record')
    (hs : NameUnspaced "dnsName" record) : items.edge? record' = items.edge? record := by
  have hname := textField?_eq_of_field?_eq (h.elsewhere "name" (by decide))
  rw [edge?, edge?, edge?_eq, edge?_eq, hname, h.dnsField_eq hs]

theorem edge?_of_dualStacked (h : DualStacked record record')
    (hs : NameUnspaced "dnsName" record) : items.edge? record' = items.edge? record := by
  have hname := textField?_eq_of_field?_eq (h.elsewhere "name" (by decide))
  obtain ⟨s, hrecord, hrecord', hsuffix, hplain, hlabel⟩ := h.here
  have hrecord := Json.text?_eq_of_field?_eq hrecord
  have hdomain : record'.dnsField "dnsName" = "dualstack." ++ record.dnsField "dnsName" := by
    rw [Json.dnsField_eq, Json.dnsField_eq, hrecord, Json.text?_eq_of_field?_eq hrecord',
      Option.elim_some, Option.elim_some, normalizeDns_dualStack (hs s hrecord) hsuffix]
  rw [edge?, edge?, edge?_eq, edge?_eq, hname, hdomain, Json.dnsField_eq, hrecord, Option.elim_some]
  simp only [target?_dualStack hsuffix hplain hlabel]

theorem Respells.edge?_eq (h : items.Respells other) (hs : items.Unspaced) :
    other.edge? record = items.edge? record := by
  have hd : ∀ k, k ≠ "" → (idsByDomain other.distributions "domainName").lookup k =
      (idsByDomain items.distributions "domainName").lookup k := fun _ =>
    lookup_idsByDomain_of_respelt h.distributions (by decide) hs.distributions
  have hl : ∀ k, k ≠ "" → (idsByDomain other.loadBalancers "dnsName").lookup k =
      (idsByDomain items.loadBalancers "dnsName").lookup k := fun _ =>
    lookup_idsByDomain_of_respelt h.loadBalancers (by decide) hs.loadBalancers
  rw [edge?, edge?, AliasSelectors.edge?_eq, AliasSelectors.edge?_eq, h.buckets]
  simp only [target?_congr hd hl]

theorem Respells.edges_eq (h : items.Respells other) (hs : items.Unspaced) :
    other.records.map other.edge? = items.records.map items.edge? := by
  have htables : other.edge? = items.edge? := funext fun _ => h.edge?_eq hs
  rw [htables]
  refine map_eq_of_forall₂ h.records hs.records fun record record' halike hrecord => ?_
  obtain halike | halike := halike
  · exact edge?_of_respelt halike hrecord
  · exact edge?_of_dualStacked halike hrecord

/-- The edge leads from the record to a distribution or load balancer with the name that the record
is an alias for, or to the bucket that is named like the record. What is taken off the name before
load balancers are looked for is left open. -/
def LeadsTo (without : String → String) (items : AliasItems) (record : Json) (edge : Edge) : Prop :=
  ∃ name domain target, record.textField? "name" = some name ∧
    record.textField? "dnsName" = some domain ∧ edge = Edge.between name target "alias" ∧
    ((∃ item ∈ items.distributions, ∃ n, item.textField? "domainName" = some n ∧
        item.textField? "id" = some target ∧ normalizeDns n = normalizeDns domain) ∨
      (∃ item ∈ items.loadBalancers, ∃ n, item.textField? "dnsName" = some n ∧
        item.textField? "id" = some target ∧ normalizeDns n = without (normalizeDns domain)) ∨
      Json.str target ∈ items.buckets ∧ target = normalizeDns name)

theorem leadsTo_of_edge? (h : items.edge? record = some edge) :
    LeadsTo withoutDualStack items record edge := by
  simp only [edge?, AliasSelectors.edge?, bind, Option.bind_eq_some_iff, pure, Option.some.injEq]
    at h
  obtain ⟨name, hname, domain, hdomain, target, htarget, rfl⟩ := h
  refine ⟨name, domain, target, hname, hdomain, rfl, ?_⟩
  simp only [target?] at htarget
  split at htarget
  · exact .inl (mem_idsByDomain_iff.1 (Ordered.mem_of_lookup htarget))
  split at htarget
  · have hbucket := List.mem_of_find?_eq_some htarget
    obtain ⟨bucket, hmem, hstr⟩ := List.mem_filterMap.1 hbucket
    have hself : bucket = .str target := by
      cases bucket with
      | str s => exact congrArg Json.str (Option.some.inj hstr)
      | _ => cases hstr
    have hname := List.find?_some htarget
    exact .inr (.inr ⟨hself ▸ hmem, of_decide_eq_true hname⟩)
  split at htarget
  · exact .inr (.inl (mem_idsByDomain_iff.1 (Ordered.mem_of_lookup htarget)))
  · cases htarget

end AliasItems

namespace AliasSelectors

structure Finds (s : AliasSelectors) (ctx : GeneratorContext) (items : AliasItems) : Prop where
  records : ctx.evaluate s.records = .ok items.records
  distributions : ctx.evaluate s.distributions = .ok items.distributions
  buckets : ctx.evaluate s.buckets = .ok items.buckets
  loadBalancers : ctx.evaluate s.loadBalancers = .ok items.loadBalancers

/-- Without records nothing else is asked for. -/
theorem Finds.generate_eq {s : AliasSelectors} {ctx : GeneratorContext} {items : AliasItems}
    (h : s.Finds ctx items) :
    s.generate ctx = .ok ⟨(items.records.map items.edge?).filterMap id, []⟩ := by
  rw [List.filterMap_map, Function.id_comp]
  unfold generate
  rw [h.records, h.distributions, h.buckets, h.loadBalancers]
  cases items with
  | mk records distributions buckets loadBalancers =>
    cases records with
    | nil => rfl
    | cons record records => rfl

/-- Items that differ only in spelling give the same edges. A record gives at most one edge, and it
leads to what has the name of the record, once the label for both address families is taken off. -/
theorem aliases_follow_names :
    (∀ items other : AliasItems, items.Unspaced → items.Respells other →
      ∀ (s s' : AliasSelectors) (ctx ctx' : GeneratorContext), s.Finds ctx items →
        s'.Finds ctx' other → s'.generate ctx' = s.generate ctx) ∧
    ∀ (s : AliasSelectors) (ctx : GeneratorContext) (items : AliasItems), s.Finds ctx items →
      ∃ edges : List (Option Edge), List.Forall₂ (fun record given => ∀ edge ∈ given,
          items.LeadsTo withoutDualStack record edge) items.records edges ∧
        s.generate ctx = .ok ⟨edges.filterMap id, []⟩ := by
  constructor
  · intro items other hs hother s s' ctx ctx' hfinds hfinds'
    rw [hfinds.generate_eq, hfinds'.generate_eq, hother.edges_eq hs]
  · intro s ctx items hfinds
    refine ⟨items.records.map items.edge?, ?_, hfinds.generate_eq⟩
    rw [List.forall₂_map_right_iff]
    exact List.forall₂_same.2 fun record _ edge hedge => AliasItems.leadsTo_of_edge? hedge

/-! ## A harbour in two spellings -/

open Assembler (found everything)

def harbour : AliasItems where
  records := [
    .obj [("name", .str "www"), ("dnsName", .str "d1.cloudfront.net.")],
    .obj [("name", .str "app"), ("dnsName", .str "North.elb.amazonaws.com")],
    .obj [("name", .str "Docs."), ("dnsName", .str "s3-website.eu.amazonaws.com")]]
  distributions := [.obj [("id", .str "cdn"), ("domainName", .str "D1.cloudfront.net")]]
  buckets := [.str "docs"]
  loadBalancers := [.obj [("id", .str "balancer"), ("dnsName", .str "north.elb.amazonaws.com")]]

/-- Each kind of name in another spelling, and one with the label for both address families. -/
def respeltHarbour : AliasItems where
  records := [
    .obj [("name", .str "www"), ("dnsName", .str "D1.CloudFront.NET")],
    .obj [("name", .str "app"), ("dnsName", .str "dualstack.North.elb.amazonaws.com")],
    .obj [("name", .str "Docs."), ("dnsName", .str "s3-website.eu.amazonaws.com")]]
  distributions := [.obj [("id", .str "cdn"), ("domainName", .str "d1.cloudfront.net..")]]
  buckets := [.str "docs"]
  loadBalancers := [.obj [("id", .str "balancer"), ("dnsName", .str "NORTH.elb.amazonaws.com.")]]

def storeOf (items : AliasItems) : GeneratorContext where
  source := .ofStore (.ofWrites [
    found "eu" "Record" "List" items.records, found "eu" "Distribution" "List" items.distributions,
    found "eu" "Bucket" "List" items.buckets, found "eu" "Balancer" "List" items.loadBalancers])
  roles := .empty

def everyAlias : AliasSelectors := ⟨everything "Record" "List", everything "Distribution" "List",
  everything "Bucket" "List", everything "Balancer" "List"⟩

theorem respells_harbour : harbour.Respells respeltHarbour := by
  have helsewhere {key field s t name : String} {v : Json} (h : name ≠ field) :
      Json.field? (.obj [(key, v), (field, .str t)]) name =
        Json.field? (.obj [(key, v), (field, .str s)]) name := by
    simp only [Json.field?, Fields.get?_cons, if_neg h]
  constructor
  · refine .cons (.inl ⟨fun _ => helsewhere, .inr ⟨_, _, rfl, rfl, ?_⟩⟩)
      (.cons (.inr ⟨fun _ => helsewhere, _, rfl, rfl, ?_, ?_, ?_⟩)
        (.cons (.inl ⟨fun _ _ => rfl, .inl rfl⟩) .nil))
    · exact ⟨"d1.cloudfront.net".toList, "D1.CloudFront.NET".toList, 1, 0, by decide, by decide,
        by decide⟩
    · decide +kernel
    · decide +kernel
    · decide +kernel
  · refine .cons ⟨fun _ => helsewhere, .inr ⟨_, _, rfl, rfl, ?_⟩⟩ .nil
    exact ⟨"D1.cloudfront.net".toList, "d1.cloudfront.net".toList, 0, 2, by decide, by decide,
      by decide⟩
  · rfl
  · refine .cons ⟨fun _ => helsewhere, .inr ⟨_, _, rfl, rfl, ?_⟩⟩ .nil
    exact ⟨"north.elb.amazonaws.com".toList, "NORTH.elb.amazonaws.com".toList, 0, 1, by decide,
      by decide, by decide⟩

theorem aliases_follow_names_harbour :
    harbour.Unspaced ∧ harbour.Respells respeltHarbour ∧
    everyAlias.Finds (storeOf harbour) harbour ∧
    everyAlias.Finds (storeOf respeltHarbour) respeltHarbour ∧
    everyAlias.generate (storeOf respeltHarbour) = everyAlias.generate (storeOf harbour) ∧
    ∃ edges, List.Forall₂ (fun record given => ∀ edge ∈ given,
        harbour.LeadsTo withoutDualStack record edge) harbour.records edges ∧
      (edges.filterMap id).map (·.target) = ["cdn", "balancer", "docs"] := by
  have hfinds : everyAlias.Finds (storeOf harbour) harbour := ⟨rfl, rfl, rfl, rfl⟩
  have hfinds' : everyAlias.Finds (storeOf respeltHarbour) respeltHarbour := ⟨rfl, rfl, rfl, rfl⟩
  obtain ⟨hspelling, hleads⟩ := aliases_follow_names
  obtain ⟨edges, hedges, hgenerate⟩ := hleads everyAlias _ _ hfinds
  have hunspaced : harbour.Unspaced := ⟨by decide, by decide, by decide⟩
  have htargets : ((harbour.records.map harbour.edge?).filterMap id).map (·.target) =
      ["cdn", "balancer", "docs"] := by decide +kernel
  rw [hfinds.generate_eq] at hgenerate
  obtain ⟨hsame, -⟩ := GeneratorOutput.mk.inj (Except.ok.inj hgenerate)
  rw [hsame] at htargets
  exact ⟨hunspaced, respells_harbour, hfinds, hfinds',
    hspelling _ _ hunspaced respells_harbour _ _ _ _ hfinds hfinds', edges, hedges, htargets⟩

/-- An alias for a load balancer whose own name starts with the label. -/
def innerLabel : AliasItems where
  records := [.obj [("name", .str "app"),
    ("dnsName", .str "dualstack.dualstack.south.elb.amazonaws.com")]]
  distributions := []
  buckets := []
  loadBalancers := [.obj [("id", .str "balancer"),
    ("dnsName", .str "dualstack.south.elb.amazonaws.com")]]

/-- The label is taken off, so the edge leads to a load balancer that does not have the name of the
record. -/
theorem label_taken_off :
    innerLabel.Unspaced ∧ everyAlias.Finds (storeOf innerLabel) innerLabel ∧
    ¬ ∃ edges, List.Forall₂ (fun record given => ∀ edge ∈ given,
        innerLabel.LeadsTo id record edge) innerLabel.records edges ∧
      everyAlias.generate (storeOf innerLabel) = .ok ⟨edges.filterMap id, []⟩ := by
  have hfinds : everyAlias.Finds (storeOf innerLabel) innerLabel := ⟨rfl, rfl, rfl, rfl⟩
  refine ⟨⟨by decide, by decide, by decide⟩, hfinds, fun h => ?_⟩
  obtain ⟨edges, hedges, hgenerate⟩ := h
  obtain ⟨given, rest, hgiven, hrest, rfl⟩ := List.forall₂_cons_left_iff.1 hedges
  cases hrest
  rw [hfinds.generate_eq] at hgenerate
  obtain ⟨hsame, -⟩ := GeneratorOutput.mk.inj (Except.ok.inj hgenerate)
  have htarget : ((innerLabel.records.map innerLabel.edge?).filterMap id).map (·.target) =
      ["balancer"] := by decide +kernel
  rw [hsame] at htarget
  cases given with
  | none => cases htarget
  | some edge =>
    obtain ⟨name, domain, target, hname, hdomain, rfl, hleads⟩ := hgiven edge rfl
    cases hname
    cases hdomain
    obtain ⟨_, hitem, -⟩ | ⟨_, hitem, n, hn, -, hnormal⟩ | ⟨hbucket, -⟩ := hleads
    · cases hitem
    · cases List.mem_singleton.1 hitem
      cases hn
      exact absurd hnormal (by decide +kernel)
    · cases hbucket

end AliasSelectors

end ResourceGraph
