import ResourceGraph.Generator.Basic

/-! From alias records to the distributions, buckets and load balancers they point at. -/
namespace ResourceGraph

/-- Records have fields `name` and `dnsName`, distributions `id` and `domainName`, load balancers
`id` and `dnsName`; buckets are names. -/
structure AliasSelectors where
  records : Selector
  distributions : Selector
  buckets : Selector
  loadBalancers : Selector

namespace AliasSelectors

def ofTexts (records distributions buckets loadBalancers : String) :
    Except QueryError AliasSelectors := do
  return ⟨← Selector.ofText records, ← Selector.ofText distributions,
    ← Selector.ofText buckets, ← Selector.ofText loadBalancers⟩

def builtIn : Except QueryError AliasSelectors :=
  ofTexts
    ("Route53|ListResourceRecordSets|[*].result.ResourceRecordSets[] | " ++
      "[?AliasTarget].\x7bname: Name, dnsName: AliasTarget.DNSName\x7d")
    ("CloudFront|ListDistributions|[*].result.DistributionList.Items[]." ++
      "\x7bid: ARN, domainName: DomainName\x7d")
    "S3|ListBuckets|[*].result.Buckets[].Name"
    ("ElasticLoadBalancingV2|DescribeLoadBalancers|[*].result.LoadBalancers[]." ++
      "\x7bid: LoadBalancerArn, dnsName: DNSName\x7d")

/-- The ids of the items by their normalized domain name. Of two with one name the later counts. -/
def idsByDomain (items : List Json) (field : String) : List (String × String) :=
  (items.filterMap fun item => do
    let domain ← item.textField? field
    let id ← item.textField? "id"
    return (normalizeDns domain, id)).reverse

/-- The domain without the label that asks for both address families. -/
def withoutDualStack (domain : String) : String :=
  let label := "dualstack.".toList
  let cs := domain.toList
  if label.isPrefixOf cs then String.ofList (cs.drop label.length) else domain

/-- What an alias to a normalized domain points at. -/
def target? (distributions loadBalancers : List (String × String)) (buckets : List String)
    (name domain : String) : Option String :=
  let cs := domain.toList
  if ".cloudfront.net".toList.isSuffixOf cs then distributions.lookup domain
  else if Text.occursIn "s3-website".toList cs then buckets.find? (· = normalizeDns name)
  else if ".elb.amazonaws.com".toList.isSuffixOf cs then
    loadBalancers.lookup (withoutDualStack domain)
  else none

/-- The edge of one record, if it points at something known. -/
def edge? (distributions loadBalancers : List (String × String)) (buckets : List String)
    (record : Json) : Option Edge := do
  let name ← record.textField? "name"
  let domain ← record.textField? "dnsName"
  let target ← target? distributions loadBalancers buckets name (normalizeDns domain)
  return Edge.between name target "alias"

def generate (s : AliasSelectors) (ctx : GeneratorContext) : Except GraphError GeneratorOutput := do
  let records ← ctx.evaluate s.records
  if records.isEmpty then return .empty
  else
    let distributions := idsByDomain (← ctx.evaluate s.distributions) "domainName"
    let loadBalancers := idsByDomain (← ctx.evaluate s.loadBalancers) "dnsName"
    let buckets := (← ctx.evaluate s.buckets).filterMap Json.str?
    return ⟨records.filterMap (edge? distributions loadBalancers buckets), []⟩

def generator (s : AliasSelectors) : Generator := ⟨"route53-alias", s.generate⟩

end AliasSelectors

end ResourceGraph
