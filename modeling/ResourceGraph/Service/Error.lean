import ResourceGraph.Query.Error

/-! What can be wrong with a configuration and with the services it describes. -/
namespace ResourceGraph

inductive EdgePart where
  | state
  | source
  | target

def EdgePart.text : EdgePart → String
  | state => "state"
  | source => "source"
  | target => "target"

/-- Where a selector or query stands. -/
inductive SelectorPlace where
  | nodes (service : String)
  | iamRoles (service : String)
  | edge (service name : String) (part : EdgePart)
  | roleSelector
  | generators

def SelectorPlace.text : SelectorPlace → String
  | nodes service => "service `" ++ service ++ "` nodes"
  | iamRoles service => "service `" ++ service ++ "` iam_roles"
  | edge service name part => "service `" ++ service ++ "` edge `" ++ name ++ "` " ++ part.text
  | roleSelector => "graph.role_selector"
  | generators => "generators"

inductive ServiceFault where
  | missingKey
  | unnamedEdge
  | unnamedOperation

def ServiceFault.message : ServiceFault → String
  | missingKey => "missing `key`"
  | unnamedEdge => "edge without a name"
  | unnamedOperation => "operation without a name"

inductive ParameterFault where
  | emptyKey
  | noSource
  | selector (e : QueryError)

def ParameterFault.message : ParameterFault → String
  | emptyKey => "empty Key"
  | noSource => "neither Selector nor Value given"
  | selector e => e.message

inductive ConfigError where
  | unreadable (path : String)
  | illFormedText
  | invalidService (service : String) (fault : ServiceFault)
  | duplicateService (key : String)
  | invalidParameter (service operation key : String) (fault : ParameterFault)
  | dependencyCycle (operation : String)
  | selector (place : SelectorPlace) (e : QueryError)

namespace ConfigError

def message : ConfigError → String
  | unreadable path => "Failed to read config `" ++ path ++ "`"
  | illFormedText => "TOML parse error:"
  | invalidService service fault =>
    "Invalid service descriptor `" ++ service ++ "`: " ++ fault.message
  | duplicateService key => "Duplicate service key `" ++ key ++ "`"
  | invalidParameter service operation key fault =>
    "Invalid parameter spec `" ++ key ++ "` for " ++ service ++ "|" ++ operation ++ ": " ++
      fault.message
  | dependencyCycle operation => "Operation dependency cycle involving " ++ operation
  | selector place e => "Selector error in " ++ place.text ++ ": " ++ e.message

def code : ConfigError → String
  | dependencyCycle _ => "CONFIG_DEPENDENCY_CYCLE"
  | selector _ e => e.code
  | _ => "CONFIG_ERROR"

end ConfigError

end ResourceGraph
