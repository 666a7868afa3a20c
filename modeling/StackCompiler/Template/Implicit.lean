import StackCompiler.Distinct
import StackCompiler.Template.Basic

/-!
Names that exist without being declared: pseudo parameters, and resources that
serverless resources bring with them.
-/
namespace StackCompiler.Template

def pseudoParameters : List String :=
  ["AWS::AccountId", "AWS::NotificationARNs", "AWS::NoValue", "AWS::Partition", "AWS::Region",
   "AWS::StackId", "AWS::StackName", "AWS::URLSuffix"]

/-- What is added to the name of a resource of some type to name the resources that come with it. -/
def companions (type : String) : List String :=
  match type with
  | "AWS::Serverless::Function" => ["Role"]
  | "AWS::Serverless::StateMachine" => ["Role"]
  | "AWS::Serverless::Api" => ["Deployment", "Stage"]
  | "AWS::Serverless::HttpApi" => ["ApiGatewayDefaultStage"]
  | _ => []

/-- An interface that is made for events that name none. -/
structure ImplicitApi where
  eventType : String
  /-- The property with which an event names its interface. -/
  property : String
  name : String

def implicitApis : List ImplicitApi :=
  [⟨"Api", "RestApiId", "ServerlessRestApi"⟩, ⟨"HttpApi", "ApiId", "ServerlessHttpApi"⟩]

/-- The interfaces that are made for an event. -/
def apisOfEvent (event : Value) : List String :=
  (implicitApis.filter fun api =>
    (event.get? "Type").bind Value.asStr? == some api.eventType
      && ((event.get? "Properties").bind (Value.get? api.property)).isNone).map (·.name)

/-- The interfaces that are made for the events of a function. -/
def apisOfFunction (resource : Resource) : List String :=
  if resource.type = "AWS::Serverless::Function" then
    match (resource.properties.get? "Events").bind Value.asObj? with
    | some events => events.flatMap fun (_, event) => apisOfEvent event
    | none => []
  else []

/-- The resources that a resource brings with it, in ascending order. -/
def implicitOf (name : String) (resource : Resource) : List String :=
  sortedNames ((companions resource.type).map (name ++ ·) ++ apisOfFunction resource)

/-- The resources that come with a template's resources, in ascending order. -/
def implicitResources (t : Template) : List String :=
  sortedNames (t.resources.flatMap fun (name, resource) => implicitOf name resource)

/-- Whether `name` is a resource, a parameter or a name that exists without being declared. -/
def isKnownTarget (t : Template) (name : String) : Bool :=
  hasMember name t.resources || hasMember name t.parameters || t.implicitResources.contains name
    || pseudoParameters.contains name

end StackCompiler.Template
