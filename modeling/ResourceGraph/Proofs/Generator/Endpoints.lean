import Mathlib.Data.List.Forall2
import ResourceGraph.Generator.Origin
import ResourceGraph.Proofs.Generator.DnsName
import ResourceGraph.Proofs.Graph.RoleEdges

/-!
# Domains of buckets

A bucket is reached at one domain for all regions and at four in each region, and the name of a
bucket may itself look like such a domain. Still, a domain says which bucket it belongs to if no
region looks like a service: its last label tells the forms apart. Of several buckets that claim a
domain only the first would be found, but there is at most one.
-/
namespace ResourceGraph.OriginSelectors

variable {bucket other region d origin b : String} {known regions : List String}
  {own : Option String} {buckets : List Json} {front label front' label' : List Char}

/-- A single label in lower case that does not start as the labels of the service do. -/
structure PlainRegion (region : String) : Prop where
  lower : Text.lowerAscii region = region
  undotted : '.' ∉ region.toList
  no_service : ¬ "s3".toList <+: region.toList

/-- A bucket whose name is in normal form, and the regions in which it is looked for are plain. -/
structure PlainBucket (known : List String) (name : String) (own : Option String) : Prop where
  named : name ≠ ""
  normal : normalizeDns name = name
  regions : ∀ region ∈ own.elim known ([·]), PlainRegion region

/-! ## The last label -/

/-- The part of a domain before its last own label and that label. Either the service starts in the
label, or the label is a region and a label of the service stands before it. -/
def Divides (bucket : String) (front label : List Char) : Prop :=
  (front = bucket.toList ∧ "s3".toList <+: label) ∨
    (¬ "s3".toList <+: label ∧ ∃ service, '.' ∉ service ∧ front = bucket.toList ++ '.' :: service)

theorem exists_divides (hregions : ∀ region ∈ own.elim known ([·]), PlainRegion region)
    (h : d ∈ bucketDomains bucket own known) :
    ∃ front label, d.toList = front ++ '.' :: (label ++ ".amazonaws.com".toList) ∧ '.' ∉ label ∧
      Divides bucket front label := by
  rw [bucketDomains, List.mem_cons, List.mem_flatMap] at h
  obtain rfl | ⟨region, hregion, h⟩ := h
  · exact ⟨bucket.toList, "s3".toList, by simp, by decide, .inl ⟨rfl, List.prefix_refl _⟩⟩
  obtain ⟨-, hdot, hservice⟩ := hregions region hregion
  simp only [regionalDomains, List.mem_cons, List.not_mem_nil, or_false] at h
  obtain rfl | rfl | rfl | rfl := h
  · exact ⟨bucket.toList ++ '.' :: "s3".toList, region.toList, by simp, hdot,
      .inr ⟨hservice, "s3".toList, by decide, rfl⟩⟩
  · exact ⟨bucket.toList, "s3-".toList ++ region.toList, by simp, by simp [hdot],
      .inl ⟨rfl, by simp⟩⟩
  · exact ⟨bucket.toList, "s3-website-".toList ++ region.toList, by simp, by simp [hdot],
      .inl ⟨rfl, by simp⟩⟩
  · exact ⟨bucket.toList ++ '.' :: "s3-website".toList, region.toList, by simp, hdot,
      .inr ⟨hservice, "s3-website".toList, by decide, rfl⟩⟩

/-- Texts that are cut at their last dot. -/
theorem eq_of_append_dot_eq (hlabel : '.' ∉ label) (hlabel' : '.' ∉ label')
    (h : front ++ '.' :: label = front' ++ '.' :: label') : front = front' ∧ label = label' := by
  obtain h | ⟨m, -, rfl⟩ | ⟨m, -, rfl⟩ := Edge.append_cons_eq_append_cons_iff.1 h
  · exact h
  · exact absurd (by simp) hlabel
  · exact absurd (by simp) hlabel'

theorem Divides.bucket_eq (h : Divides bucket front label) (h' : Divides other front label) :
    bucket = other := by
  apply String.toList_injective
  obtain ⟨rfl, hstart⟩ | ⟨hstart, service, hservice, rfl⟩ := h
  · obtain ⟨heq, -⟩ | ⟨hother, -⟩ := h'
    · exact heq
    · exact absurd hstart hother
  · obtain ⟨-, hother⟩ | ⟨-, service', hservice', heq⟩ := h'
    · exact absurd hother hstart
    · exact (eq_of_append_dot_eq hservice hservice' heq).1

/-- Buckets that share a domain have one name. -/
theorem bucket_eq_of_mem_bucketDomains {own' : Option String}
    (hregions : ∀ region ∈ own.elim known ([·]), PlainRegion region)
    (hregions' : ∀ region ∈ own'.elim known ([·]), PlainRegion region)
    (h : d ∈ bucketDomains bucket own known) (h' : d ∈ bucketDomains other own' known) :
    bucket = other := by
  obtain ⟨front, label, hd, hlabel, hdivides⟩ := exists_divides hregions h
  obtain ⟨front', label', hd', hlabel', hdivides'⟩ := exists_divides hregions' h'
  have hcut : front ++ '.' :: label = front' ++ '.' :: label' := by
    have happend := hd.symm.trans hd'
    rw [← List.cons_append, ← List.append_assoc, ← List.cons_append, ← List.append_assoc] at happend
    exact List.append_cancel_right happend
  obtain ⟨rfl, rfl⟩ := eq_of_append_dot_eq hlabel hlabel' hcut
  exact hdivides.bucket_eq hdivides'

/-! ## Normal forms -/

/-- What follows a name in normal form decides whether the whole is in normal form. -/
theorem normalizeDns_append (hnamed : bucket ≠ "") (hnormal : normalizeDns bucket = bucket)
    {rest : String} (hlast : rest.toList.getLast? = some 'm')
    (hrest : Text.lowerAscii rest = rest) : normalizeDns (bucket ++ rest) = bucket ++ rest := by
  obtain ⟨htrim, -, hlower⟩ := normalizeDns_eq_self_iff.1 hnormal
  have hend : (bucket ++ rest).toList.getLast? = some 'm' := by
    rw [String.toList_append, List.getLast?_append, hlast]
    rfl
  have hhead : (bucket ++ rest).toList.head? = bucket.toList.head? := by
    cases hbucket : bucket.toList with
    | nil => exact absurd (String.toList_eq_nil_iff.1 hbucket) hnamed
    | cons c cs => simp [String.toList_append, hbucket]
  refine normalizeDns_eq_self_iff.2 ⟨Text.trim_eq_self_iff.2 ⟨?_, ?_⟩, ?_, ?_⟩
  · rw [hhead]
    exact (Text.trim_eq_self_iff.1 htrim).1
  · rw [hend]
    exact fun c hc => by cases hc; decide
  · rw [hend]
    exact fun c hc => by cases hc; decide
  · rw [Text.lowerAscii_append, hlower, hrest]

/-- The domains of a bucket are in normal form. -/
theorem PlainBucket.normalizeDns_eq (h : PlainBucket known bucket own)
    (hd : d ∈ bucketDomains bucket own known) : normalizeDns d = d := by
  rw [bucketDomains, List.mem_cons, List.mem_flatMap] at hd
  obtain rfl | ⟨region, hregion, hd⟩ := hd
  · exact normalizeDns_append h.named h.normal (by decide +kernel) (by decide +kernel)
  have hregional {service : String} (hservice : Text.lowerAscii service = service) :
      normalizeDns (bucket ++ service ++ region ++ ".amazonaws.com") =
        bucket ++ service ++ region ++ ".amazonaws.com" := by
    have hend : Text.lowerAscii ".amazonaws.com" = ".amazonaws.com" := by decide +kernel
    rw [String.append_assoc, String.append_assoc]
    refine normalizeDns_append h.named h.normal (by simp) ?_
    rw [Text.lowerAscii_append, Text.lowerAscii_append, hservice, (h.regions region hregion).lower,
      hend]
  simp only [regionalDomains, List.mem_cons, List.not_mem_nil, or_false] at hd
  obtain rfl | rfl | rfl | rfl := hd
  · exact hregional (by decide +kernel)
  · exact hregional (by decide +kernel)
  · exact hregional (by decide +kernel)
  · exact hregional (by decide +kernel)

/-! ## The bucket behind an origin -/

/-- The origin is a spelling of a domain of the bucket. -/
def ReachedAt (known : List String) (buckets : List Json) (origin b : String) : Prop :=
  ∃ bucket ∈ buckets, bucket.textField? "name" = some b ∧
    ∃ d ∈ bucketDomains b (bucket.textField? "region") known, normalizeDns origin = normalizeDns d

/-- All buckets with a name are plain. -/
def PlainBuckets (known : List String) (buckets : List Json) : Prop :=
  ∀ bucket ∈ buckets, ∀ name, bucket.textField? "name" = some name →
    PlainBucket known name (bucket.textField? "region")

theorem ReachedAt.unique {b' : String} (hplain : PlainBuckets known buckets)
    (h : ReachedAt known buckets origin b) (h' : ReachedAt known buckets origin b') : b = b' := by
  obtain ⟨bucket, hbucket, hname, d, hd, heq⟩ := h
  obtain ⟨bucket', hbucket', hname', d', hd', heq'⟩ := h'
  have hb := hplain bucket hbucket b hname
  have hb' := hplain bucket' hbucket' b' hname'
  have hsame : d = d' := by
    rw [← hb.normalizeDns_eq hd, ← hb'.normalizeDns_eq hd', ← heq, ← heq']
  exact bucket_eq_of_mem_bucketDomains hb.regions hb'.regions hd (hsame ▸ hd')

theorem mem_bucketsByDomain_iff : (normalizeDns origin, b) ∈ bucketsByDomain known buckets ↔
    ReachedAt known buckets origin b := by
  rw [bucketsByDomain, List.mem_flatMap]
  refine exists_congr fun bucket => and_congr_right fun _ => ?_
  cases bucket.textField? "name" with
  | none => simp
  | some name =>
    simp only [List.mem_map, Prod.mk.injEq, Option.some.injEq]
    constructor
    · intro h
      obtain ⟨d, hd, heq, rfl⟩ := h
      exact ⟨rfl, d, hd, heq.symm⟩
    · intro h
      obtain ⟨rfl, d, hd, heq⟩ := h
      exact ⟨d, hd, heq.symm, rfl⟩

theorem lookup_bucketsByDomain_iff (hplain : PlainBuckets known buckets) :
    (bucketsByDomain known buckets).lookup (normalizeDns origin) = some b ↔
      ReachedAt known buckets origin b := by
  constructor
  · exact fun h => mem_bucketsByDomain_iff.1 (Ordered.mem_of_lookup h)
  · intro h
    cases hlookup : (bucketsByDomain known buckets).lookup (normalizeDns origin) with
    | none =>
      have hnone := List.lookup_eq_none_iff.1 hlookup _ (mem_bucketsByDomain_iff.2 h)
      simp at hnone
    | some found =>
      -- the first bucket that claims the domain is the only one
      have hfound := mem_bucketsByDomain_iff.1 (Ordered.mem_of_lookup hlookup)
      rw [hfound.unique hplain h]

/-- The edges of a distribution with an id: for each origin in order the one to its bucket, if it
has one. -/
def EdgesFrom (known : List String) (buckets : List Json) (distribution : Json)
    (edges : List Edge) : Prop :=
  match distribution.textField? "id" with
  | some id => ∃ targets, List.Forall₂
      (fun origin target => ∀ b, target = some b ↔ ReachedAt known buckets origin b)
      (distribution.textList "origins") targets ∧
      edges = targets.filterMap (·.map fun b => Edge.between id b "origin")
  | none => edges = []

theorem edgesFrom_edgesOf (hplain : PlainBuckets known buckets) {distribution : Json} :
    EdgesFrom known buckets distribution
      (edgesOf (bucketsByDomain known buckets) distribution) := by
  unfold EdgesFrom edgesOf
  cases distribution.textField? "id" with
  | none => rfl
  | some id =>
    refine ⟨(distribution.textList "origins").map
      fun origin => (bucketsByDomain known buckets).lookup (normalizeDns origin), ?_, ?_⟩
    · rw [List.forall₂_map_right_iff]
      exact List.forall₂_same.2 fun origin _ b => lookup_bucketsByDomain_iff hplain
    · rw [List.filterMap_map]
      rfl

/-- No domain of a bucket is one of a bucket with another name. So each origin of a distribution
gives the edge to the bucket that has it among its domains, if there is one, and to no other. -/
theorem origins_lead_to_buckets :
    (∀ known b b' own own', PlainBucket known b own → PlainBucket known b' own' →
      ∀ d ∈ bucketDomains b own known, normalizeDns d = d ∧
        (normalizeDns d ∈ bucketDomains b' own' known → b = b')) ∧
    ∀ (s : OriginSelectors) (ctx : GeneratorContext) (distributions buckets : List Json)
      (known : List String), ctx.evaluate s.distributions = .ok distributions →
      ctx.evaluate s.buckets = .ok buckets → ctx.knownRegions = .ok known →
      PlainBuckets known buckets →
      ∃ parts, List.Forall₂ (EdgesFrom known buckets) distributions parts ∧
        s.generate ctx = .ok ⟨parts.flatten, []⟩ := by
  constructor
  · intro known b b' own own' hb hb' d hd
    have hnormal := hb.normalizeDns_eq hd
    refine ⟨hnormal, fun hother => ?_⟩
    rw [hnormal] at hother
    exact bucket_eq_of_mem_bucketDomains hb.regions hb'.regions hd hother
  · intro s ctx distributions buckets known hdistributions hbuckets hknown hplain
    refine ⟨distributions.map (edgesOf (bucketsByDomain known buckets)), ?_, ?_⟩
    · rw [List.forall₂_map_right_iff]
      exact List.forall₂_same.2 fun distribution _ => edgesFrom_edgesOf hplain
    · rw [← List.flatMap_def]
      unfold generate
      rw [hdistributions, hbuckets, hknown]
      cases distributions with
      | nil => rfl
      | cons distribution distributions => rfl

/-! ## Buckets named like domains of each other -/

open Assembler (found everything)

/-- The first name starts the second, which goes on like a domain of the first. The first bucket is
looked for in one region only. -/
def nestedBuckets : List Json := [
  .obj [("name", .str "logs"), ("region", .str "eu")], .obj [("name", .str "logs.s3")],
  .obj [("region", .str "us")]]

/-- Spellings of a domain of each bucket, and a domain of the first in a region it is not in. -/
def nestedOrigins : List Json := [
  .obj [("id", .str "cdn"), ("origins", .arr [.str " LOGS.S3.eu.amazonaws.com.",
    .str "logs.s3.s3-us.amazonaws.com", .str "logs.s3.us.amazonaws.com"])],
  .obj [("origins", .str "logs.s3.amazonaws.com")]]

def nested : GeneratorContext where
  source := .ofStore (.ofWrites [
    found "us" "Bucket" "List" (nestedBuckets.drop 2),
    found "eu" "Bucket" "List" (nestedBuckets.take 2),
    found "eu" "Distribution" "List" nestedOrigins])
  roles := .empty

def everyOrigin : OriginSelectors := ⟨everything "Distribution" "List", everything "Bucket" "List"⟩

theorem plainRegion_eu : PlainRegion "eu" := ⟨by decide +kernel, by decide, by decide⟩

theorem plainRegion_us : PlainRegion "us" := ⟨by decide +kernel, by decide, by decide⟩

theorem origins_lead_to_nested_buckets :
    PlainBuckets ["eu", "us"] nestedBuckets ∧
    "logs.s3.s3-eu.amazonaws.com" ∉ bucketDomains "logs" (some "eu") ["eu", "us"] ∧
    nested.evaluate everyOrigin.distributions = .ok nestedOrigins ∧
    nested.evaluate everyOrigin.buckets = .ok nestedBuckets ∧
    nested.knownRegions = .ok ["eu", "us"] ∧
    ReachedAt ["eu", "us"] nestedBuckets " LOGS.S3.eu.amazonaws.com." "logs" ∧
    ReachedAt ["eu", "us"] nestedBuckets "logs.s3.s3-us.amazonaws.com" "logs.s3" ∧
    ∃ parts, List.Forall₂ (EdgesFrom ["eu", "us"] nestedBuckets) nestedOrigins parts ∧
      everyOrigin.generate nested = .ok ⟨parts.flatten, []⟩ := by
  have hlogs : PlainBucket ["eu", "us"] "logs" (some "eu") :=
    ⟨by decide, by decide +kernel, by simpa using plainRegion_eu⟩
  have hinner : PlainBucket ["eu", "us"] "logs.s3" none :=
    ⟨by decide, by decide +kernel, by simpa using ⟨plainRegion_eu, plainRegion_us⟩⟩
  have hplain : PlainBuckets ["eu", "us"] nestedBuckets := by
    unfold PlainBuckets nestedBuckets
    simp only [List.forall_mem_cons]
    refine ⟨fun name h => ?_, fun name h => ?_, fun name h => ?_, by simp⟩
    · cases h
      exact hlogs
    · cases h
      exact hinner
    · cases h
  have hdistributions : nested.evaluate everyOrigin.distributions = .ok nestedOrigins := rfl
  have hbuckets : nested.evaluate everyOrigin.buckets = .ok nestedBuckets := rfl
  have hknown : nested.knownRegions = .ok ["eu", "us"] := rfl
  obtain ⟨hapart, hgenerate⟩ := origins_lead_to_buckets
  refine ⟨hplain, fun hmem => ?_, hdistributions, hbuckets, hknown, ?_, ?_,
    hgenerate everyOrigin nested _ _ _ hdistributions hbuckets hknown hplain⟩
  · have hdomain : "logs.s3.s3-eu.amazonaws.com" ∈ bucketDomains "logs.s3" none ["eu", "us"] := by
      decide +kernel
    have hnormal := hapart _ _ _ _ _ hinner hlogs _ hdomain
    exact absurd (hnormal.2 (hnormal.1 ▸ hmem)) (by decide)
  · exact ⟨_, List.mem_cons_self, rfl, "logs.s3.eu.amazonaws.com", by decide +kernel,
      by decide +kernel⟩
  · exact ⟨_, .tail _ (.head _), rfl, "logs.s3.s3-us.amazonaws.com", by decide +kernel, rfl⟩

end ResourceGraph.OriginSelectors
