import PropFlow.Item

namespace PropFlow

inductive FlowType where
  | stateToProp
  | setterToProp
  | functionToProp
  | propToProp
  | contextProviderToConsumer
  | dataFlow
deriving DecidableEq, Repr, Inhabited

namespace FlowType

def label : FlowType → String
  | stateToProp => "state-to-prop"
  | setterToProp => "setter-to-prop"
  | functionToProp => "function-to-prop"
  | propToProp => "prop-to-prop"
  | contextProviderToConsumer => "context-provider-to-consumer"
  | dataFlow => "data-flow"

-- The type of a flow between items of two kinds; an unknown kind is `none`.
def between : Option ItemKind → Option ItemKind → FlowType
  | some .state, some .prop => stateToProp
  | some .setter, some .propFunction => setterToProp
  | some .function, some .propFunction => functionToProp
  | some .prop, some .prop => propToProp
  | some .contextProvider, _ => contextProviderToConsumer
  | _, _ => dataFlow

end FlowType

-- A value that passes from an item of one component to an item of another. The files tell
-- components of one name apart; they may be left empty.
structure Flow where
  id : String
  source : String
  target : String
  type : String
  sourceFile : String
  targetFile : String
deriving DecidableEq, Repr, Inhabited

end PropFlow
