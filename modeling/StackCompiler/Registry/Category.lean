import StackCompiler.Text.Lines

/-!
Service domains. Generated declarations are split into one file for each.
-/
namespace StackCompiler

inductive Category where
  | network | compute | storage | security | database | messaging | monitoring | pipeline | misc
deriving DecidableEq

namespace Category

/-- All domains, in the order in which their files are written. -/
def all : List Category :=
  [network, compute, storage, security, database, messaging, monitoring, pipeline, misc]

def name : Category → String
  | network => "network"
  | compute => "compute"
  | storage => "storage"
  | security => "security"
  | database => "database"
  | messaging => "messaging"
  | monitoring => "monitoring"
  | pipeline => "pipeline"
  | misc => "misc"

/-- Kinds of the virtual-machine namespace that belong to the network. -/
def networkKinds : List String :=
  ["VPC", "Subnet", "InternetGateway", "EgressOnlyInternetGateway", "VPCGatewayAttachment",
   "NatGateway", "EIP", "EIPAssociation", "RouteTable", "Route", "SubnetRouteTableAssociation",
   "VPCEndpoint", "VPCEndpointService", "VPCPeeringConnection", "VPCCidrBlock", "SubnetCidrBlock",
   "TransitGateway", "TransitGatewayAttachment", "TransitGatewayVpcAttachment",
   "TransitGatewayRoute", "TransitGatewayRouteTable", "NetworkAcl", "NetworkAclEntry",
   "SubnetNetworkAclAssociation", "NetworkInterface", "NetworkInterfaceAttachment", "DHCPOptions",
   "VPCDHCPOptionsAssociation", "VPNGateway", "VPNGatewayRoutePropagation", "VPNConnection",
   "VPNConnectionRoute", "CustomerGateway", "PrefixList", "FlowLog"]

/-- Kinds of the virtual-machine namespace that belong to security. -/
def securityKinds : List String :=
  ["SecurityGroup", "SecurityGroupIngress", "SecurityGroupEgress", "KeyPair"]

def ofMachineKind (kind : String) : Category :=
  if networkKinds.contains kind then network
  else if securityKinds.contains kind then security
  else compute

def ofServerlessKind (kind : String) : Category :=
  match kind with
  | "Api" => network
  | "HttpApi" => network
  | "SimpleTable" => database
  | "StateMachine" => pipeline
  | "Function" => compute
  | "LayerVersion" => compute
  | _ => misc

/-- The namespaces that belong to one domain as a whole. -/
def namespaces : List (Category × List String) :=
  [(.network,
      ["ElasticLoadBalancing", "ElasticLoadBalancingV2", "Route53", "Route53Profiles",
       "Route53Resolver", "Route53RecoveryControl", "Route53RecoveryReadiness", "CloudFront",
       "ApiGateway", "ApiGatewayV2", "GlobalAccelerator", "NetworkFirewall", "NetworkManager",
       "VpcLattice", "ServiceDiscovery", "AppMesh"]),
   (.compute,
      ["Lambda", "ECS", "EKS", "ECR", "Batch", "AutoScaling", "ApplicationAutoScaling",
       "ElasticBeanstalk", "AppRunner", "Lightsail", "ImageBuilder", "GameLift", "EMR",
       "EMRServerless", "EMRContainers"]),
   (.storage,
      ["S3", "S3Express", "S3ObjectLambda", "S3Outposts", "S3Tables", "EFS", "FSx", "Backup",
       "BackupGateway", "DataSync"]),
   (.security,
      ["IAM", "KMS", "SecretsManager", "CertificateManager", "ACMPCA", "WAF", "WAFRegional",
       "WAFv2", "Shield", "GuardDuty", "SecurityHub", "Cognito", "SSO", "IdentityStore",
       "Inspector", "InspectorV2", "Macie", "Detective", "AccessAnalyzer", "RolesAnywhere",
       "VerifiedPermissions", "FMS", "SecurityLake", "Signer"]),
   (.database,
      ["RDS", "DynamoDB", "ElastiCache", "DocDB", "DocDBElastic", "Neptune", "NeptuneGraph",
       "Redshift", "RedshiftServerless", "MemoryDB", "Cassandra", "QLDB", "Timestream", "DAX",
       "DSQL", "OpenSearchService", "Elasticsearch", "OpenSearchServerless"]),
   (.messaging,
      ["SNS", "SQS", "Events", "EventSchemas", "Pipes", "Scheduler", "AmazonMQ", "MSK",
       "KafkaConnect", "Kinesis", "KinesisFirehose", "SES", "Pinpoint", "PinpointEmail"]),
   (.monitoring,
      ["CloudWatch", "Logs", "CloudTrail", "XRay", "Synthetics", "RUM", "Oam", "InternetMonitor",
       "ApplicationInsights", "ApplicationSignals", "Grafana", "APS", "Config", "DevOpsGuru",
       "ObservabilityAdmin"]),
   (.pipeline,
      ["CodePipeline", "CodeBuild", "CodeCommit", "CodeDeploy", "CodeArtifact", "CodeStar",
       "CodeStarConnections", "CodeStarNotifications", "CodeConnections", "StepFunctions", "Glue",
       "DataPipeline"])]

def ofNamespace (namespaceName : String) : Category :=
  match namespaces.find? (·.2.contains namespaceName) with
  | some (category, _) => category
  | none => misc

/-- The domain of a canonical type such as `AWS::EC2::VPC`. Two namespaces are split by kind. -/
def of (canonical : String) : Category :=
  let mark := [':', ':']
  let (before, kind) := (Text.splitLast? mark canonical.toList).getD ([], canonical.toList)
  let namespaceName := ((Text.splitLast? mark before).map (·.2)).getD before
  match String.ofList namespaceName with
  | "EC2" => ofMachineKind (String.ofList kind)
  | "Serverless" => ofServerlessKind (String.ofList kind)
  | other => ofNamespace other

end Category

end StackCompiler
