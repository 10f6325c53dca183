import ResourceGraph.Generator.Basic

/-! From distributions to the buckets that are their origins, by the domains of the buckets. -/
namespace ResourceGraph

/-- Distributions have fields `id` and `origins`, buckets `name` and possibly `region`. -/
structure OriginSelectors where
  distributions : Selector
  buckets : Selector

namespace OriginSelectors

def ofTexts (distributions buckets : String) : Except QueryError OriginSelectors := do
  return ⟨← Selector.ofText distributions, ← Selector.ofText buckets⟩

def builtIn : Except QueryError OriginSelectors :=
  ofTexts
    ("CloudFront|ListDistributions|[*].result.DistributionList.Items[]." ++
      "\x7bid: ARN, origins: Origins.Items[].DomainName\x7d")
    "S3|ListBuckets|[*].result.Buckets[].\x7bname: Name, region: BucketRegion\x7d"

/-- The domains of a bucket in one region. -/
def regionalDomains (bucket region : String) : List String := [
  bucket ++ ".s3." ++ region ++ ".amazonaws.com",
  bucket ++ ".s3-" ++ region ++ ".amazonaws.com",
  bucket ++ ".s3-website-" ++ region ++ ".amazonaws.com",
  bucket ++ ".s3-website." ++ region ++ ".amazonaws.com"]

/-- The domains at which a bucket is reached: one for all regions, and those of its region, or of
every known region if it has none. -/
def bucketDomains (bucket : String) (region : Option String) (known : List String) :
    List String :=
  (bucket ++ ".s3.amazonaws.com") ::
    (region.elim known ([·])).flatMap (regionalDomains bucket)

/-- The bucket names by normalized domain. The first that claims a domain comes first. -/
def bucketsByDomain (known : List String) (buckets : List Json) : List (String × String) :=
  buckets.flatMap fun bucket =>
    match bucket.textField? "name" with
    | some name =>
      (bucketDomains name (bucket.textField? "region") known).map fun d => (normalizeDns d, name)
    | none => []

/-- The edges of one distribution to the buckets among its origins. -/
def edgesOf (byDomain : List (String × String)) (distribution : Json) : List Edge :=
  match distribution.textField? "id" with
  | some id =>
    (distribution.textList "origins").filterMap fun origin =>
      (byDomain.lookup (normalizeDns origin)).map fun bucket => Edge.between id bucket "origin"
  | none => []

def generate (s : OriginSelectors) (ctx : GeneratorContext) :
    Except GraphError GeneratorOutput := do
  let distributions ← ctx.evaluate s.distributions
  if distributions.isEmpty then return .empty
  else
    let known ← ctx.knownRegions
    let byDomain := bucketsByDomain known (← ctx.evaluate s.buckets)
    return ⟨distributions.flatMap (edgesOf byDomain), []⟩

def generator (s : OriginSelectors) : Generator := ⟨"cloudfront-s3-origin", s.generate⟩

end OriginSelectors

end ResourceGraph
