import ResourceGraph.Service.Descriptor

/-! The services known without any configuration. -/
namespace ResourceGraph

/-- A parameter that a selector gives. -/
def ParameterSpec.reading (key selector : String) : ParameterSpec := ⟨key, some selector, none⟩

/-- A parameter that is always the same. -/
def ParameterSpec.literal (key : String) (value : Json) : ParameterSpec := ⟨key, none, some value⟩

namespace BuiltIn

def iam : ServiceSpec where
  key := "iam"
  service := some "IAM"
  label := some "IAM Role"
  arnService := none
  isGlobal := true
  bareNameIds := false
  nodes := [
    "IAM|ListRoles|[*].result.Roles[].\x7bid: Arn, name: RoleName\x7d"]
  edges := []
  iamRoles := []
  operations := [
    ⟨"ListRoles", []⟩]

def lambda : ServiceSpec where
  key := "lambda"
  service := some "Lambda"
  label := some "Lambda Function"
  arnService := none
  isGlobal := false
  bareNameIds := false
  nodes := [
    "Lambda|ListFunctions|[*].result.Functions[].\x7bid: FunctionArn, name: FunctionName, " ++
      "runtime: Runtime\x7d"]
  edges := []
  iamRoles := [
    "Lambda|ListFunctions|[*].result.Functions[].\x7broleArn: Role, executor: FunctionArn\x7d"]
  operations := [
    ⟨"ListFunctions", []⟩]

def ecs : ServiceSpec where
  key := "ecs"
  service := some "ECS"
  label := some "ECS"
  arnService := none
  isGlobal := false
  bareNameIds := false
  nodes := [
    "ECS|DescribeClusters|[*].result.clusters[].\x7bid: clusterArn, name: clusterName\x7d",
    "ECS|DescribeServices|[*].result.services[].\x7bid: serviceArn, name: serviceName, " ++
      "parent: clusterArn\x7d",
    "ECS|DescribeTasks|[*].result.tasks[].\x7bid: taskArn, parent: clusterArn, group: group\x7d"]
  edges := []
  iamRoles := []
  operations := [
    ⟨"ListClusters", []⟩,
    ⟨"DescribeClusters", [
      .reading "clusters" "ECS|ListClusters|[*].result.clusterArns[]",
      .literal "include" (.ofStrings ["TAGS"])]⟩,
    ⟨"ListServices", [
      .reading "cluster" "ECS|ListClusters|[*].result.clusterArns[]"]⟩,
    ⟨"DescribeServices", [
      .reading "cluster" "ECS|ListServices|[?result.serviceArns[0]].parameters.cluster",
      .reading "services" "ECS|ListServices|[?result.serviceArns[0]].result.serviceArns"]⟩,
    ⟨"ListTasks", [
      .reading "cluster" "ECS|ListClusters|[*].result.clusterArns[]"]⟩,
    ⟨"DescribeTasks", [
      .reading "cluster" "ECS|ListTasks|[?result.taskArns[0]].parameters.cluster",
      .reading "tasks" "ECS|ListTasks|[?result.taskArns[0]].result.taskArns"]⟩,
    ⟨"DescribeTaskDefinition", [
      .reading "taskDefinition" "ECS|DescribeServices|[*].result.services[].taskDefinition"]⟩]

def s3 : ServiceSpec where
  key := "s3"
  service := some "S3"
  label := some "S3 Bucket"
  arnService := none
  isGlobal := true
  bareNameIds := true
  nodes := [
    "S3|ListBuckets|[*].result.Buckets[].\x7bid: Name, name: Name\x7d"]
  edges := []
  iamRoles := []
  operations := [
    ⟨"ListBuckets", []⟩,
    ⟨"GetBucketWebsite", [
      .reading "Bucket" "S3|ListBuckets|[*].result.Buckets[].Name"]⟩]

def dynamodb : ServiceSpec where
  key := "dynamodb"
  service := some "DynamoDB"
  label := some "DynamoDB Table"
  arnService := none
  isGlobal := false
  bareNameIds := false
  nodes := [
    "DynamoDB|DescribeTable|[*].result.Table.\x7bid: TableArn, name: TableName\x7d"]
  edges := []
  iamRoles := []
  operations := [
    ⟨"ListTables", []⟩,
    ⟨"DescribeTable", [
      .reading "TableName" "DynamoDB|ListTables|[*].result.TableNames[]"]⟩]

def sns : ServiceSpec where
  key := "sns"
  service := some "SNS"
  label := some "SNS Topic"
  arnService := none
  isGlobal := false
  bareNameIds := false
  nodes := [
    "SNS|ListTopics|[*].result.Topics[].\x7bid: TopicArn\x7d"]
  edges := [
    ⟨"subscription", "SNS|ListSubscriptions|[*].result.Subscriptions[]",
      "TopicArn", "Endpoint"⟩]
  iamRoles := []
  operations := [
    ⟨"ListTopics", []⟩,
    ⟨"ListSubscriptions", []⟩]

def sqs : ServiceSpec where
  key := "sqs"
  service := some "SQS"
  label := some "SQS Queue"
  arnService := none
  isGlobal := false
  bareNameIds := false
  nodes := [
    "SQS|GetQueueAttributes|[*].result.Attributes.\x7bid: QueueArn\x7d"]
  edges := []
  iamRoles := []
  operations := [
    ⟨"ListQueues", []⟩,
    ⟨"GetQueueAttributes", [
      .reading "QueueUrl" "SQS|ListQueues|[*].result.QueueUrls[]",
      .literal "AttributeNames" (.ofStrings ["QueueArn"])]⟩]

def cloudfront : ServiceSpec where
  key := "cloudfront"
  service := some "CloudFront"
  label := some "CloudFront Distribution"
  arnService := none
  isGlobal := true
  bareNameIds := false
  nodes := [
    "CloudFront|ListDistributions|[*].result.DistributionList.Items[].\x7bid: ARN, " ++
      "domainName: DomainName\x7d"]
  edges := []
  iamRoles := []
  operations := [
    ⟨"ListDistributions", []⟩]

def route53 : ServiceSpec where
  key := "route53"
  service := some "Route53"
  label := some "Route 53 Record"
  arnService := none
  isGlobal := true
  bareNameIds := false
  nodes := [
    "Route53|ListResourceRecordSets|[*].result.ResourceRecordSets[] | " ++
      "[?AliasTarget].\x7bid: Name, recordType: Type\x7d"]
  edges := []
  iamRoles := []
  operations := [
    ⟨"ListHostedZones", []⟩,
    ⟨"ListResourceRecordSets", [
      .reading "HostedZoneId" "Route53|ListHostedZones|[*].result.HostedZones[].Id"]⟩]

def elbv2 : ServiceSpec where
  key := "elbv2"
  service := some "ElasticLoadBalancingV2"
  label := some "Load Balancer"
  arnService := some "elasticloadbalancing"
  isGlobal := false
  bareNameIds := false
  nodes := [
    "ElasticLoadBalancingV2|DescribeLoadBalancers|[*].result.LoadBalancers[].\x7bid: " ++
      "LoadBalancerArn, name: LoadBalancerName, dnsName: DNSName\x7d"]
  edges := []
  iamRoles := []
  operations := [
    ⟨"DescribeLoadBalancers", []⟩,
    ⟨"DescribeTargetGroups", []⟩]

/-- All of them, in load order: identity, computing, storage, messages, networks. -/
def services : List ServiceSpec :=
  [iam, lambda, ecs, s3, dynamodb, sns, sqs, cloudfront, route53, elbv2]

end BuiltIn

end ResourceGraph
