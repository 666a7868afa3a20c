/-!
The service namespaces: each short name with the canonical spelling, which follows
no rule of case.
-/
namespace StackCompiler

structure Namespace where
  /-- The name in declared types, in lower case. -/
  short : String
  /-- The owner of the namespace. -/
  owner : String
  /-- The canonical spelling. -/
  name : String
deriving DecidableEq

namespace Namespace

/-- Short names and spellings of the namespaces of the main owner. -/
def services : List (String × String) :=
  [("serverless", "Serverless"), ("accessanalyzer", "AccessAnalyzer"), ("acmpca", "ACMPCA"),
   ("aiops", "AIOps"), ("amazonmq", "AmazonMQ"), ("amplify", "Amplify"),
   ("amplifyuibuilder", "AmplifyUIBuilder"), ("apigateway", "ApiGateway"),
   ("apigatewayv2", "ApiGatewayV2"), ("appconfig", "AppConfig"), ("appflow", "AppFlow"),
   ("appintegrations", "AppIntegrations"), ("applicationautoscaling", "ApplicationAutoScaling"),
   ("applicationinsights", "ApplicationInsights"), ("applicationsignals", "ApplicationSignals"),
   ("appmesh", "AppMesh"), ("apprunner", "AppRunner"), ("appstream", "AppStream"),
   ("appsync", "AppSync"), ("apptest", "AppTest"), ("aps", "APS"),
   ("arcregionswitch", "ARCRegionSwitch"), ("arczonalshift", "ARCZonalShift"), ("athena", "Athena"),
   ("auditmanager", "AuditManager"), ("autoscaling", "AutoScaling"),
   ("autoscalingplans", "AutoScalingPlans"), ("b2bi", "B2BI"), ("backup", "Backup"),
   ("backupgateway", "BackupGateway"), ("batch", "Batch"), ("bcmdataexports", "BCMDataExports"),
   ("bedrock", "Bedrock"), ("billingconductor", "BillingConductor"), ("budgets", "Budgets"),
   ("cassandra", "Cassandra"), ("ce", "CE"), ("certificatemanager", "CertificateManager"),
   ("chatbot", "Chatbot"), ("cleanrooms", "CleanRooms"), ("cleanroomsml", "CleanRoomsML"),
   ("cloud9", "Cloud9"), ("cloudformation", "CloudFormation"), ("cloudfront", "CloudFront"),
   ("cloudtrail", "CloudTrail"), ("cloudwatch", "CloudWatch"), ("codeartifact", "CodeArtifact"),
   ("codebuild", "CodeBuild"), ("codecommit", "CodeCommit"), ("codeconnections", "CodeConnections"),
   ("codedeploy", "CodeDeploy"), ("codeguruprofiler", "CodeGuruProfiler"),
   ("codegurureviewer", "CodeGuruReviewer"), ("codepipeline", "CodePipeline"),
   ("codestar", "CodeStar"), ("codestarconnections", "CodeStarConnections"),
   ("codestarnotifications", "CodeStarNotifications"), ("cognito", "Cognito"),
   ("comprehend", "Comprehend"), ("config", "Config"), ("connect", "Connect"),
   ("connectcampaigns", "ConnectCampaigns"), ("connectcampaignsv2", "ConnectCampaignsV2"),
   ("controltower", "ControlTower"), ("cur", "CUR"), ("customerprofiles", "CustomerProfiles"),
   ("databrew", "DataBrew"), ("datapipeline", "DataPipeline"), ("datasync", "DataSync"),
   ("datazone", "DataZone"), ("dax", "DAX"), ("deadline", "Deadline"), ("detective", "Detective"),
   ("devopsguru", "DevOpsGuru"), ("directoryservice", "DirectoryService"), ("dlm", "DLM"),
   ("dms", "DMS"), ("docdb", "DocDB"), ("docdbelastic", "DocDBElastic"), ("dsql", "DSQL"),
   ("dynamodb", "DynamoDB"), ("ec2", "EC2"), ("ecr", "ECR"), ("ecs", "ECS"), ("efs", "EFS"),
   ("eks", "EKS"), ("elasticache", "ElastiCache"), ("elasticbeanstalk", "ElasticBeanstalk"),
   ("elasticloadbalancing", "ElasticLoadBalancing"),
   ("elasticloadbalancingv2", "ElasticLoadBalancingV2"), ("elasticsearch", "Elasticsearch"),
   ("emr", "EMR"), ("emrcontainers", "EMRContainers"), ("emrserverless", "EMRServerless"),
   ("entityresolution", "EntityResolution"), ("events", "Events"), ("eventschemas", "EventSchemas"),
   ("evidently", "Evidently"), ("finspace", "FinSpace"), ("fis", "FIS"), ("fms", "FMS"),
   ("forecast", "Forecast"), ("frauddetector", "FraudDetector"), ("fsx", "FSx"),
   ("gamelift", "GameLift"), ("globalaccelerator", "GlobalAccelerator"), ("glue", "Glue"),
   ("grafana", "Grafana"), ("greengrass", "Greengrass"), ("greengrassv2", "GreengrassV2"),
   ("groundstation", "GroundStation"), ("guardduty", "GuardDuty"),
   ("healthimaging", "HealthImaging"), ("healthlake", "HealthLake"), ("iam", "IAM"),
   ("identitystore", "IdentityStore"), ("imagebuilder", "ImageBuilder"), ("inspector", "Inspector"),
   ("inspectorv2", "InspectorV2"), ("internetmonitor", "InternetMonitor"),
   ("invoicing", "Invoicing"), ("iot", "IoT"), ("iot1click", "IoT1Click"),
   ("iotanalytics", "IoTAnalytics"), ("iotcoredeviceadvisor", "IoTCoreDeviceAdvisor"),
   ("iotevents", "IoTEvents"), ("iotfleethub", "IoTFleetHub"), ("iotfleetwise", "IoTFleetWise"),
   ("iotmanagedintegrations", "IoTManagedIntegrations"), ("iotsitewise", "IoTSiteWise"),
   ("iotthingsgraph", "IoTThingsGraph"), ("iottwinmaker", "IoTTwinMaker"),
   ("iotwireless", "IoTWireless"), ("ivs", "IVS"), ("ivschat", "IVSChat"),
   ("kafkaconnect", "KafkaConnect"), ("kendra", "Kendra"), ("kendraranking", "KendraRanking"),
   ("kinesis", "Kinesis"), ("kinesisanalytics", "KinesisAnalytics"),
   ("kinesisanalyticsv2", "KinesisAnalyticsV2"), ("kinesisfirehose", "KinesisFirehose"),
   ("kinesisvideo", "KinesisVideo"), ("kms", "KMS"), ("lakeformation", "LakeFormation"),
   ("lambda", "Lambda"), ("launchwizard", "LaunchWizard"), ("lex", "Lex"),
   ("licensemanager", "LicenseManager"), ("lightsail", "Lightsail"), ("location", "Location"),
   ("logs", "Logs"), ("lookoutequipment", "LookoutEquipment"), ("lookoutmetrics", "LookoutMetrics"),
   ("lookoutvision", "LookoutVision"), ("m2", "M2"), ("macie", "Macie"),
   ("managedblockchain", "ManagedBlockchain"), ("mediaconnect", "MediaConnect"),
   ("mediaconvert", "MediaConvert"), ("medialive", "MediaLive"), ("mediapackage", "MediaPackage"),
   ("mediapackagev2", "MediaPackageV2"), ("mediastore", "MediaStore"),
   ("mediatailor", "MediaTailor"), ("memorydb", "MemoryDB"), ("msk", "MSK"), ("mwaa", "MWAA"),
   ("neptune", "Neptune"), ("neptunegraph", "NeptuneGraph"), ("networkfirewall", "NetworkFirewall"),
   ("networkmanager", "NetworkManager"), ("nimblestudio", "NimbleStudio"),
   ("notifications", "Notifications"), ("notificationscontacts", "NotificationsContacts"),
   ("oam", "Oam"), ("observabilityadmin", "ObservabilityAdmin"), ("omics", "Omics"),
   ("opensearchserverless", "OpenSearchServerless"), ("opensearchservice", "OpenSearchService"),
   ("opsworks", "OpsWorks"), ("opsworkscm", "OpsWorksCM"), ("organizations", "Organizations"),
   ("osis", "OSIS"), ("panorama", "Panorama"), ("paymentcryptography", "PaymentCryptography"),
   ("pcaconnectorad", "PCAConnectorAD"), ("pcaconnectorscep", "PCAConnectorSCEP"), ("pcs", "PCS"),
   ("personalize", "Personalize"), ("pinpoint", "Pinpoint"), ("pinpointemail", "PinpointEmail"),
   ("pipes", "Pipes"), ("proton", "Proton"), ("qbusiness", "QBusiness"), ("qldb", "QLDB"),
   ("quicksight", "QuickSight"), ("ram", "RAM"), ("rbin", "Rbin"), ("rds", "RDS"),
   ("redshift", "Redshift"), ("redshiftserverless", "RedshiftServerless"),
   ("refactorspaces", "RefactorSpaces"), ("rekognition", "Rekognition"),
   ("resiliencehub", "ResilienceHub"), ("resourceexplorer2", "ResourceExplorer2"),
   ("resourcegroups", "ResourceGroups"), ("robomaker", "RoboMaker"),
   ("rolesanywhere", "RolesAnywhere"), ("route53", "Route53"),
   ("route53profiles", "Route53Profiles"), ("route53recoverycontrol", "Route53RecoveryControl"),
   ("route53recoveryreadiness", "Route53RecoveryReadiness"), ("route53resolver", "Route53Resolver"),
   ("rum", "RUM"), ("s3", "S3"), ("s3express", "S3Express"), ("s3objectlambda", "S3ObjectLambda"),
   ("s3outposts", "S3Outposts"), ("s3tables", "S3Tables"), ("sagemaker", "SageMaker"),
   ("scheduler", "Scheduler"), ("sdb", "SDB"), ("secretsmanager", "SecretsManager"),
   ("securityhub", "SecurityHub"), ("securitylake", "SecurityLake"),
   ("servicecatalog", "ServiceCatalog"), ("servicecatalogappregistry", "ServiceCatalogAppRegistry"),
   ("servicediscovery", "ServiceDiscovery"), ("ses", "SES"), ("shield", "Shield"),
   ("signer", "Signer"), ("simspaceweaver", "SimSpaceWeaver"), ("smsvoice", "SMSVoice"),
   ("sns", "SNS"), ("sqs", "SQS"), ("ssm", "SSM"), ("ssmcontacts", "SSMContacts"),
   ("ssmguiconnect", "SSMGuiConnect"), ("ssmincidents", "SSMIncidents"),
   ("ssmquicksetup", "SSMQuickSetup"), ("sso", "SSO"), ("stepfunctions", "StepFunctions"),
   ("supportapp", "SupportApp"), ("synthetics", "Synthetics"),
   ("systemsmanagersap", "SystemsManagerSAP"), ("timestream", "Timestream"),
   ("transfer", "Transfer"), ("verifiedpermissions", "VerifiedPermissions"), ("voiceid", "VoiceID"),
   ("vpclattice", "VpcLattice"), ("waf", "WAF"), ("wafregional", "WAFRegional"), ("wafv2", "WAFv2"),
   ("wisdom", "Wisdom"), ("workspaces", "WorkSpaces"),
   ("workspacesthinclient", "WorkSpacesThinClient"), ("workspacesweb", "WorkSpacesWeb"),
   ("xray", "XRay")]

/-- Every namespace that is known. -/
def all : List Namespace :=
  ⟨"ask", "Alexa", "ASK"⟩ :: services.map fun (short, name) => ⟨short, "AWS", name⟩

end Namespace

end StackCompiler
