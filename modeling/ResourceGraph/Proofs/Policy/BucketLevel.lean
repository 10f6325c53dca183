import Mathlib.Data.List.Nodup
import ResourceGraph.Proofs.Policy.Resource

/-!
# Buckets that resource names reach

A resource name of a service with bare ids reaches buckets by the name after its fifth colon, up to
the first slash. The words before it, but for the service's segment, and the path behind it do not
count, whatever wildcards the path has. A bucket's name without a star reaches that bucket alone if
no star stands in the segment or in the partition of the resolver: these become part of the text
that is compared, and a star in any place of that makes it a pattern.
-/
namespace ResourceGraph.ResourceResolver

open Text (isBlank trim trimChars dropEndWhile)

/-! ## Spellings of a bucket -/

/-- The name of a bucket: neither empty nor with a colon, a slash or blanks around it. -/
structure IsBucket (bucket : String) : Prop where
  ne_empty : bucket ≠ ""
  no_colon : ':' ∉ bucket.toList
  no_slash : '/' ∉ bucket.toList
  trimmed : trim bucket = bucket

/-- The service has bare ids and owns the segment. Segment and partition are words without
colons. -/
structure Owns (r : ResourceResolver) (d : Descriptor) (segment : String) : Prop where
  owner : r.catalog.byArnService? segment = some d
  bare : d.bareNameIds = true
  ne_empty : segment ≠ ""
  no_colon : ':' ∉ segment.toList
  partition : ':' ∉ r.partition.toList

/-- What a resource name has around a service's segment and the name of a bucket: words without
colons, and the path of an object in the bucket. -/
structure Spelling where
  scheme : String
  partition : String
  region : String
  account : String
  path : String
  scheme_ne_empty : scheme ≠ ""
  scheme_start : ∀ c ∈ scheme.toList.head?, isBlank c = false
  no_colon : ∀ word ∈ [scheme, partition, region, account], ':' ∉ word.toList
  path_start : path = "" ∨ ∃ rest, path.toList = '/' :: rest

/-- The resource name that is spelled so. -/
def Spelling.name (sp : Spelling) (segment bucket : String) : String :=
  sp.scheme ++ ":" ++ sp.partition ++ ":" ++ segment ++ ":" ++ sp.region ++ ":" ++ sp.account ++
    ":" ++ bucket ++ sp.path

/-- The same words with a path. -/
def Spelling.withPath (sp : Spelling) (rest : List Char) : Spelling := { sp with
  path := String.ofList ('/' :: rest)
  path_start := .inr ⟨rest, String.toList_ofList⟩ }

/-- The spelling of a bucket in the partition, without a path. -/
def Spelling.plain (partition : String) (h : ':' ∉ partition.toList) : Spelling where
  scheme := "arn"
  partition := partition
  region := ""
  account := ""
  path := ""
  scheme_ne_empty := by simp
  scheme_start := by simp [isBlank]
  no_colon := by
    simp only [List.forall_mem_cons]
    exact ⟨by decide, h, by decide, by decide, List.forall_mem_nil _⟩
  path_start := .inl rfl

section Spelling

variable {sp : Spelling} {segment bucket partition : String}

theorem Spelling.name_plain (h : ':' ∉ partition.toList) :
    (plain partition h).name segment bucket = bareArn partition segment bucket := by
  simp [name, plain, bareArn, String.append_assoc]

theorem Spelling.toList_name : (sp.name segment bucket).toList =
    sp.scheme.toList ++ ':' :: (sp.partition.toList ++ ':' :: (segment.toList ++ ':' ::
      (sp.region.toList ++ ':' :: (sp.account.toList ++ ':' ::
        (bucket.toList ++ sp.path.toList))))) := by
  simp [name]

theorem Spelling.head?_name :
    (sp.name segment bucket).toList.head? = sp.scheme.toList.head? := by
  rw [toList_name, List.head?_append_of_ne_nil]
  simpa using sp.scheme_ne_empty

/-- Blanks at the end of a name are part of the path. -/
theorem Spelling.exists_trim (hbucket : IsBucket bucket) :
    ∃ other : Spelling, trim (sp.name segment bucket) = other.name segment bucket := by
  have hstart : ∀ c ∈ (sp.name segment bucket).toList.head?, isBlank c = false := by
    rw [head?_name]
    exact sp.scheme_start
  rcases sp.path_start with hpath | ⟨rest, hpath⟩
  · -- without a path the name ends with the bucket, which has no blank there
    refine ⟨sp, Text.trim_eq_self_iff.2 ⟨hstart, ?_⟩⟩
    have hlast : (sp.name segment bucket).toList.getLast? = bucket.toList.getLast? := by
      have hne : bucket.toList ≠ [] := by simpa using hbucket.ne_empty
      simp [toList_name, hpath, List.getLast?_append, List.getLast?_cons,
        List.getLast?_eq_some_getLast hne]
    rw [hlast]
    exact (Text.trim_eq_self_iff.1 hbucket.trimmed).2
  · -- the slash stays, so nothing in front of it is dropped
    refine ⟨sp.withPath (dropEndWhile isBlank rest), ?_⟩
    have hkept := Text.dropEndWhile_append_cons (show isBlank '/' = false by decide)
      (sp.scheme.toList ++ ':' :: (sp.partition.toList ++ ':' :: (segment.toList ++ ':' ::
        (sp.region.toList ++ ':' :: (sp.account.toList ++ ':' :: bucket.toList))))) rest
    rw [← String.toList_inj, trim, String.toList_ofList, trimChars,
      Text.dropWhile_eq_self_iff.2 hstart, toList_name, toList_name, hpath]
    simpa [withPath] using hkept

theorem Spelling.lastPart_name (hsegment : ':' ∉ segment.toList) :
    lastPart (sp.name segment bucket).toList = bucket.toList ++ sp.path.toList := by
  have hwords := sp.no_colon
  simp only [List.forall_mem_cons] at hwords
  obtain ⟨hscheme, hpartition, hregion, haccount, -⟩ := hwords
  rw [lastPart, toList_name]
  simp only [lastPart.after, Text.cutAt?_append, hscheme, hpartition, hsegment, hregion, haccount,
    not_false_eq_true, Option.bind_some, Option.getD_some]

theorem takeWhile_path (hbucket : IsBucket bucket) :
    (bucket.toList ++ sp.path.toList).takeWhile (· ≠ '/') = bucket.toList := by
  have hfree : ∀ c ∈ bucket.toList, decide (c ≠ '/') = true := by
    intro c hc
    refine decide_eq_true fun heq => hbucket.no_slash ?_
    rwa [← heq]
  rw [List.takeWhile_append_of_pos hfree]
  rcases sp.path_start with hpath | ⟨rest, hpath⟩
  · simp [hpath]
  · simp [hpath]

/-- The bucket of a name is what it was spelled with. -/
theorem Spelling.bucketLevel_name (hbucket : IsBucket bucket)
    (hsegment : ':' ∉ segment.toList) :
    bucketLevel partition segment (sp.name segment bucket) = bareArn partition segment bucket := by
  rw [bucketLevel, lastPart_name hsegment, takeWhile_path hbucket, String.ofList_toList]

end Spelling

/-! ## Resolving a spelling -/

section Resolve

variable {r : ResourceResolver} {d : Descriptor} {sp : Spelling} {segment bucket : String}

theorem Spelling.ownedBy (h : r.Owns d segment) : r.OwnedBy (sp.name segment bucket) d := by
  have hwords := sp.no_colon
  simp only [List.forall_mem_cons] at hwords
  refine ⟨sp.scheme.toList, sp.partition.toList, segment.toList, _, toList_name, hwords.1,
    hwords.2.1, h.no_colon, .inr ⟨_, rfl⟩, ?_, ?_⟩
  · simpa using h.ne_empty
  · rw [String.ofList_toList]
    exact h.owner

/-- However a bucket is spelled, it reaches the ids that its plain name covers. -/
theorem resolve_name (h : r.Owns d segment) (hbucket : IsBucket bucket) :
    r.resolve (sp.name segment bucket) = ((r.index.ids? d.key).getD []).filter fun id =>
      covers (bareArn r.partition segment bucket) (bareArn r.partition segment id) := by
  have hclaims : d.arnService = segment := by simpa using List.find?_some h.owner
  obtain ⟨other, htrim⟩ : ∃ other : Spelling,
      trim (sp.name segment bucket) = other.name segment bucket := Spelling.exists_trim hbucket
  have howned : r.OwnedBy (trim (sp.name segment bucket)) d := by
    rw [htrim]
    exact Spelling.ownedBy h
  rw [resolve_of_ownedBy howned, htrim]
  simp only [subject, candidate, h.bare, if_true, hclaims,
    Spelling.bucketLevel_name hbucket h.no_colon]

theorem bareArn_inj {partition id other : String} :
    bareArn partition segment id = bareArn partition segment other ↔ id = other := by
  simp [bareArn, String.append_right_inj]

/-- Without a star, what is covered is the bucket's own name. -/
theorem filter_covers_bareArn (hstar : '*' ∉ (bareArn r.partition segment bucket).toList) :
    (((r.index.ids? d.key).getD []).filter fun id =>
      covers (bareArn r.partition segment bucket) (bareArn r.partition segment id)) =
      if bucket ∈ (r.index.ids? d.key).getD [] then [bucket] else [] := by
  have hcovers : ∀ id, covers (bareArn r.partition segment bucket)
      (bareArn r.partition segment id) = decide (id = bucket) := by
    intro id
    rw [covers, if_neg (by simpa using hstar)]
    exact decide_eq_decide.2 bareArn_inj
  have hnodup : ((r.index.ids? d.key).getD []).Nodup := (r.index.ascending_ids d.key).nodup
  simp only [hcovers]
  rw [List.filter_eq, hnodup.count]
  split
  · rfl
  · rfl

/-- Only the name of the bucket counts in a resource name of the service. Where no star stands in
it, in the segment or in the partition, the bucket itself is reached if it is known, and nothing
else. -/
theorem resolve_spelling (h : r.Owns d segment) (hbucket : IsBucket bucket) (sp : Spelling) :
    r.resolve (sp.name segment bucket) = r.resolve (bareArn r.partition segment bucket) ∧
    ('*' ∉ r.partition.toList → '*' ∉ segment.toList → '*' ∉ bucket.toList →
      r.resolve (sp.name segment bucket) =
        if bucket ∈ (r.index.ids? d.key).getD [] then [bucket] else []) := by
  refine ⟨?_, fun hpartition hsegment hstar => ?_⟩
  · rw [← Spelling.name_plain h.partition, resolve_name h hbucket, resolve_name h hbucket]
  · rw [resolve_name h hbucket, filter_covers_bareArn]
    simp [bareArn, hpartition, hsegment, hstar]

end Resolve

/-! ## Stars -/

/-- Buckets of a service with this key, which is its segment as well. -/
def bucketsOf (key : String) : Descriptor := { buckets with key := key, arnService := key }

/-- Two buckets, of which one's name starts with the other's. -/
def logBuckets (partition key : String) : ResourceResolver where
  catalog := ⟨[bucketsOf key], List.nodup_singleton _⟩
  index := (NodeIndex.empty.insert key "logs").insert key "logs-old"
  partition := partition

/-- Words that are not those of the resolver, and a path with wildcards and blanks behind it. -/
def elsewhere : Spelling where
  scheme := "x"
  partition := "*"
  region := "eu"
  account := "?"
  path := "/2024:*/?* "
  scheme_ne_empty := by simp
  scheme_start := by simp [isBlank]
  no_colon := by decide
  path_start := .inr ⟨_, rfl⟩

theorem isBucket_logs : IsBucket "logs" where
  ne_empty := by decide
  no_colon := by decide
  no_slash := by decide
  trimmed := by decide +kernel

theorem owns_logBuckets {partition key : String} (hne : key ≠ "") (hkey : ':' ∉ key.toList)
    (hpartition : ':' ∉ partition.toList) :
    (logBuckets partition key).Owns (bucketsOf key) key where
  owner := by simp [Catalog.byArnService?, logBuckets, bucketsOf]
  bare := rfl
  ne_empty := hne
  no_colon := hkey
  partition := hpartition

/-- The stars of the path do not make the bucket's name a pattern. -/
theorem resolve_spelling_elsewhere :
    (logBuckets "aws" "s3").Owns (bucketsOf "s3") "s3" ∧ IsBucket "logs" ∧
      elsewhere.name "s3" "logs" = "x:*:s3:eu:?:logs/2024:*/?* " ∧
      (logBuckets "aws" "s3").resolve (elsewhere.name "s3" "logs") =
        (logBuckets "aws" "s3").resolve "arn:aws:s3:::logs" ∧
      (logBuckets "aws" "s3").resolve (elsewhere.name "s3" "logs") = ["logs"] := by
  have howns : (logBuckets "aws" "s3").Owns (bucketsOf "s3") "s3" :=
    owns_logBuckets (by decide) (by decide) (by decide)
  obtain ⟨hplain, hexact⟩ := resolve_spelling howns isBucket_logs elsewhere
  refine ⟨howns, isBucket_logs, by decide, hplain, ?_⟩
  exact hexact (by decide) (by decide) (by decide)

/-- A bucket's name without a star may reach other buckets: through a star in the segment of its
service, and through one in the partition. -/
theorem star_around_bucket_reaches_more :
    (¬ ∀ (r : ResourceResolver) (d : Descriptor) (segment bucket : String),
      r.Owns d segment → IsBucket bucket → '*' ∉ r.partition.toList → '*' ∉ bucket.toList →
      r.resolve (bareArn r.partition segment bucket) =
        if bucket ∈ (r.index.ids? d.key).getD [] then [bucket] else []) ∧
    ¬ ∀ (r : ResourceResolver) (d : Descriptor) (segment bucket : String),
      r.Owns d segment → IsBucket bucket → '*' ∉ segment.toList → '*' ∉ bucket.toList →
      r.resolve (bareArn r.partition segment bucket) =
        if bucket ∈ (r.index.ids? d.key).getD [] then [bucket] else [] := by
  refine ⟨fun hexact => ?_, fun hexact => ?_⟩
  · have hlogs := hexact (logBuckets "aws" "store*") (bucketsOf "store*") "store*" "logs"
      (owns_logBuckets (by decide) (by decide) (by decide)) isBucket_logs (by decide) (by decide)
    exact absurd hlogs (by decide +kernel)
  · have hlogs := hexact (logBuckets "aws*" "s3") (bucketsOf "s3") "s3" "logs"
      (owns_logBuckets (by decide) (by decide) (by decide)) isBucket_logs (by decide) (by decide)
    exact absurd hlogs (by decide +kernel)

end ResourceGraph.ResourceResolver
